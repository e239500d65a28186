/-
DataVault.Entity.Naming — the names derived from an entity.

Every derived name is a function of the specification alone: the hash key
column, one business key column per key field, for links one hub key
column per key field, and the artifact names. A derived name can be too
long for an identifier and is then an error.
-/
import DataVault.Entity.Spec

namespace DataVault.Entity

open DataVault.Sql

/-- Which artifact of an entity is meant. -/
inductive ArtifactRole where
  /-- The only artifact of a hub or a link. -/
  | primary
  /-- The snapshot extract of a satellite. -/
  | satelliteBase
  /-- The history merge of a satellite. -/
  | satelliteMerge
  deriving DecidableEq

namespace ArtifactRole

def name : ArtifactRole → String
  | primary => "primary"
  | satelliteBase => "satellite_base"
  | satelliteMerge => "satellite_merge"

def ofName? (s : String) : Option ArtifactRole :=
  [primary, satelliteBase, satelliteMerge].find? (·.name == s)

/-- What an artifact name has after the entity's name. -/
def suffix? : ArtifactRole → Option String
  | primary => none
  | satelliteBase => some "base"
  | satelliteMerge => some "merge"

end ArtifactRole

/-- The column of one business key field: `<field>_bk`. -/
def businessKeyName (field : Ident) : Except IdentError Ident := field.withSuffix "bk"

/-- The hash key of the hub keyed by one field: `<field>_hk`. -/
def hubKeyName (field : Ident) : Except IdentError Ident := field.withSuffix "hk"

namespace EntitySpec

/-- The business key fields joined with `_`. -/
def keyLabel (spec : EntitySpec) : Except IdentError Ident := Ident.joined spec.businessKey

/-- The hash key column: `<key label>_hk`. -/
def hashKeyName (spec : EntitySpec) : Except IdentError Ident := do
  (← spec.keyLabel).withSuffix "hk"

/-- The business key columns, in the order of the fields. -/
def businessKeyNames (spec : EntitySpec) : Except IdentError (List Ident) :=
  spec.businessKey.mapM businessKeyName

/-- The hub keys of a link, in the order of the fields. -/
def hubKeyNames (spec : EntitySpec) : Except IdentError (List Ident) :=
  spec.businessKey.mapM hubKeyName

/-- The name of an artifact of the entity. -/
def artifactName (spec : EntitySpec) (role : ArtifactRole) : Except IdentError Ident :=
  match role.suffix? with
  | none => .ok spec.name
  | some suffix => spec.name.withSuffix suffix

/-- A derived name that is no identifier makes the specification invalid. -/
def derived {α : Type} (spec : EntitySpec) (name : Except IdentError α) :
    Except CompileError α :=
  name.mapError fun reason => spec.reject (.invalidIdentifier "generated name" reason)

end EntitySpec

end DataVault.Entity
