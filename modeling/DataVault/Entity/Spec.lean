/-
DataVault.Entity.Spec — validated entity specifications.

An `EntitySpec` names an entity, its kind, its business key, its
descriptive fields and the relation it is loaded from. The rules of its
kind are fields of the type: enough keys, descriptive fields exactly for a
satellite, and no field declared twice. `EntitySpec.make` checks the rules
in that order, and `EntitySpec.parse` reads the parts from text first.

The order of the fields is part of the specification: it fixes the order
in which values are hashed.
-/
import DataVault.Entity.Error
import DataVault.Sql.TableRef

namespace DataVault.Entity

open DataVault.Sql DataVault.Text

/-! ## 1. Specifications -/

/-- No two fields of the list have the same name. -/
def DistinctFields (fields : List Ident) : Prop :=
  fields.Pairwise fun a b => a.sameName b = false

instance (fields : List Ident) : Decidable (DistinctFields fields) :=
  inferInstanceAs (Decidable (List.Pairwise _ _))

/-- One validated entity. -/
structure EntitySpec where
  name : Ident
  kind : EntityKind
  businessKey : List Ident
  descriptive : List Ident
  source : TableRef
  enoughKeys : kind.minKeys ≤ businessKey.length
  describes_eq : kind.describes = !descriptive.isEmpty
  distinct : DistinctFields (businessKey ++ descriptive)
  deriving DecidableEq

/-- The first field that repeats one before it. `seen` holds the fields
already passed. -/
def firstRepeated? (seen : List Ident) : List Ident → Option Ident
  | [] => none
  | field :: rest =>
      if Ident.among seen field then some field else firstRepeated? (field :: seen) rest

theorem firstRepeated?_eq_none_iff {seen fields : List Ident} :
    firstRepeated? seen fields = none ↔
      (∀ s ∈ seen, ∀ f ∈ fields, s.sameName f = false) ∧ DistinctFields fields := by
  induction fields generalizing seen with
  | nil => simp [firstRepeated?, DistinctFields]
  | cons field rest ih =>
    by_cases h : Ident.among seen field = true
    · simp only [firstRepeated?, h, if_true, reduceCtorEq, false_iff, not_and]
      intro hall
      obtain ⟨s, hs, hsame⟩ := List.any_eq_true.mp h
      have := hall s hs field (by simp)
      simp [hsame] at this
    · have hnone : ∀ s ∈ seen, s.sameName field = false := by
        intro s hs
        cases hsame : s.sameName field with
        | false => rfl
        | true => exact absurd (List.any_eq_true.mpr ⟨s, hs, hsame⟩) h
      simp only [firstRepeated?, h, Bool.false_eq_true, if_false, ih, DistinctFields,
        List.pairwise_cons, List.forall_mem_cons]
      constructor
      · rintro ⟨⟨hfield, hrest⟩, hpair⟩
        exact ⟨fun s hs => ⟨hnone s hs, hrest s hs⟩, hfield, hpair⟩
      · rintro ⟨hall, hfield, hpair⟩
        exact ⟨⟨hfield, fun s hs => (hall s hs).2⟩, hpair⟩

namespace EntitySpec

/-- The error that a broken rule is for this entity. -/
def reject (spec : EntitySpec) (violation : Violation) : CompileError :=
  .invalidSpec spec.name.text violation

/-- All declared fields, the business key first. -/
def fields (spec : EntitySpec) : List Ident := spec.businessKey ++ spec.descriptive

/-- Checks the rules of the kind. -/
def make (name : Ident) (kind : EntityKind) (businessKey descriptive : List Ident)
    (source : TableRef) : Except CompileError EntitySpec :=
  let refuse (violation : Violation) : Except CompileError EntitySpec :=
    .error (.invalidSpec name.text violation)
  if enough : kind.minKeys ≤ businessKey.length then
    if describes : kind.describes = !descriptive.isEmpty then
      match repeated : firstRepeated? [] (businessKey ++ descriptive) with
      | some field => refuse (.duplicateField field.text)
      | none =>
          .ok ⟨name, kind, businessKey, descriptive, source, enough, describes,
            (firstRepeated?_eq_none_iff.mp repeated).2⟩
    else if kind.describes then refuse .descriptiveFieldsRequired
    else refuse (.descriptiveFieldsNotAllowed kind)
  else refuse (.keyCount kind kind.minKeys businessKey.length)

/-! ## 2. From text -/

/-- Reads an identifier that stands in the named field, with blanks around
it ignored. -/
def parseIdent (entity field text : String) : Except CompileError Ident :=
  (Ident.parse (trim text)).mapError fun reason =>
    .invalidSpec entity (.invalidIdentifier field reason)

/-- Refuses a blank text in the named field. -/
def requireField (entity field text : String) : Except CompileError String :=
  let trimmed := trim text
  if trimmed.isEmpty then .error (.invalidSpec entity (.missingField field)) else .ok trimmed

/-- Reads a specification. The parts are read in the order name, kind,
source table, business key, descriptive fields, and the first one that
cannot be read decides the error. -/
def parse (name kind : String) (businessKey descriptive : List String) (source : String) :
    Except CompileError EntitySpec := do
  let entity ← requireField (trim name) "name" name
  let ident ← parseIdent entity "name" entity
  let kindName ← requireField entity "kind" kind
  let some entityKind := EntityKind.ofNameIgnoringCase? kindName
    | throw (.unknownKind entity kindName)
  let sourceName ← requireField entity "source_table" source
  let table ← (TableRef.parse sourceName).mapError fun reason =>
    .invalidSpec entity (.invalidIdentifier "source_table" reason)
  let keys ← businessKey.mapM (parseIdent entity "business_key")
  let fields ← descriptive.mapM (parseIdent entity "descriptive_fields")
  make ident entityKind keys fields table

end EntitySpec

end DataVault.Entity
