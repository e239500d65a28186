/-
DataVault.Proofs.Entity.Refusal — what an error says.

A rejection keeps the text of its error and not the error. The one text
that the proofs read back is that of a taken artifact name, with the name
and its owner in it (`Rejection.SaysTaken`). It begins unlike the errors
that are not about a specification and ends unlike the other rules, so an
error with this text is one about a taken name (`exists_takenError`). No
identifier holds the quotes that stand around its parts, so the text gives
them back (`takenError_inj`).

No text that is read as a specification is refused for a taken name
(`failsWith_parse`): the names are claimed later.
-/
import DataVault.Entity.Rejection
import DataVault.Entity.Spec
import DataVault.Proofs.Results
import DataVault.Proofs.Sql.Names

namespace DataVault.Entity

open DataVault.Results DataVault.Sql DataVault.Text

/-- The error of an artifact name that is taken. -/
def takenError (entity name owner : String) : CompileError :=
  .invalidSpec entity (.artifactNameTaken name owner)

/-- The rejection says that an artifact name is already produced by an
entity. -/
def Rejection.SaysTaken (r : Rejection) (name owner : String) : Prop :=
  ∃ entity, r.message = (takenError entity name owner).message

/-! ## 1. Pieces with a sign after each -/

section
variable {sign : Char}

theorem splitChars_pieces {pieces : List (List Char)} (hfree : ∀ piece ∈ pieces, sign ∉ piece) :
    splitChars sign (pieces.flatMap (· ++ [sign])) = pieces ++ [[]] := by
  induction pieces with
  | nil => rfl
  | cons piece rest ih =>
    obtain ⟨hpiece, hrest⟩ := List.forall_mem_cons.mp hfree
    rw [List.flatMap_cons, List.append_assoc, List.singleton_append,
      splitChars_append_cons _ hpiece, ih hrest, List.cons_append]

theorem count_pieces (pieces : List (List Char)) :
    (pieces.flatMap (· ++ [sign])).count sign = pieces.flatten.count sign + pieces.length := by
  induction pieces with
  | nil => rfl
  | cons piece rest ih =>
    rw [List.flatMap_cons, List.count_append, ih, List.count_append, List.count_singleton_self,
      List.flatten_cons, List.count_append, List.length_cons]
    omega

theorem count_flatten_eq_zero_iff {pieces : List (List Char)} :
    pieces.flatten.count sign = 0 ↔ ∀ piece ∈ pieces, sign ∉ piece := by
  rw [List.count_eq_zero, List.mem_flatten]
  constructor
  · intro h piece hpiece hsign
    exact h ⟨piece, hpiece, hsign⟩
  · rintro h ⟨piece, hpiece, hsign⟩
    exact h piece hpiece hsign

/-- As many pieces as the text has signs are all free of the sign. -/
theorem pieces_inj {left right : List (List Char)} (hfree : ∀ piece ∈ left, sign ∉ piece)
    (hlength : left.length = right.length)
    (h : left.flatMap (· ++ [sign]) = right.flatMap (· ++ [sign])) : left = right := by
  have hcount := congrArg (List.count sign) h
  rw [count_pieces, count_pieces, count_flatten_eq_zero_iff.mpr hfree, hlength] at hcount
  have hfree' : ∀ piece ∈ right, sign ∉ piece := count_flatten_eq_zero_iff.mp (by omega)
  have hsplit := congrArg (splitChars sign) h
  rw [splitChars_pieces hfree, splitChars_pieces hfree'] at hsplit
  exact List.append_cancel_right hsplit

end

/-! ## 2. The text of a taken name -/

theorem head?_append_text {a b : String} {c : Char} (h : a.toList.head? = some c) :
    (a ++ b).toList.head? = some c := by
  rw [String.toList_append, List.head?_append, h, Option.some_or]

theorem getLast?_append_text {a b : String} {c : Char} (h : b.toList.getLast? = some c) :
    (a ++ b).toList.getLast? = some c := by
  rw [String.toList_append, List.getLast?_append, h, Option.some_or]

/-- The text ends, and not in a quote. -/
def EndsUnquoted (text : String) : Prop := ∃ c, text.toList.getLast? = some c ∧ c ≠ '\''

theorem EndsUnquoted.append {text : String} (h : EndsUnquoted text) (start : String) :
    EndsUnquoted (start ++ text) := by
  obtain ⟨c, hlast, hquote⟩ := h
  exact ⟨c, getLast?_append_text hlast, hquote⟩

theorem endsUnquoted_numeral (n : Nat) : EndsUnquoted (toString n) := by
  unfold EndsUnquoted
  rw [Nat.toString_eq_ofList_toDigits, String.toList_ofList]
  have hne : Nat.toDigits 10 n ≠ [] := Nat.toDigits_ne_nil
  refine ⟨_, List.getLast?_eq_some_getLast hne, fun hquote => ?_⟩
  have hdigit := Nat.isDigit_of_mem_toDigits (by decide) (by decide) (List.getLast_mem hne)
  rw [hquote] at hdigit
  exact absurd hdigit (by decide)

theorem endsUnquoted_identError (reason : IdentError) : EndsUnquoted reason.message := by
  cases reason with
  | empty => exact ⟨'y', by decide, by decide⟩
  | tooLong text => exact .append ⟨'s', by simp, by decide⟩ _
  | invalidCharacters text => exact .append ⟨'s', by simp, by decide⟩ _
  | tooManyParts text => exact .append ⟨'s', by simp, by decide⟩ _

/-- Only the rule about artifact names ends in a quote. -/
theorem endsUnquoted_violation {v : Violation}
    (h : ∀ name owner, v ≠ .artifactNameTaken name owner) : EndsUnquoted v.message := by
  cases v with
  | missingField field => exact .append ⟨'g', by simp, by decide⟩ _
  | keyCount kind min actual => exact .append (endsUnquoted_numeral actual) _
  | descriptiveFieldsRequired => exact ⟨'d', by decide, by decide⟩
  | descriptiveFieldsNotAllowed kind => exact .append ⟨'s', by simp, by decide⟩ _
  | invalidIdentifier field reason => exact .append (endsUnquoted_identError reason) _
  | duplicateField field => exact .append ⟨'e', by simp, by decide⟩ _
  | reservedColumn field => exact .append ⟨'n', by simp, by decide⟩ _
  | duplicateEntity first => exact .append (endsUnquoted_numeral first) _
  | artifactNameTaken name owner => exact absurd rfl (h name owner)
  | kindMismatch expected actual => exact .append ⟨'r', by simp, by decide⟩ _

/-- The pieces that the quotes of a text end. -/
theorem toList_quotedParts {start middle next last end' : String} {p q r : List Char}
    (hstart : start.toList = p ++ ['\''])
    (hmiddle : middle.toList ++ next.toList = '\'' :: (q ++ ['\'']))
    (hlast : last.toList = '\'' :: (r ++ ['\''])) (hend : end'.toList = ['\''])
    (entity name owner : String) :
    (start ++ entity ++ middle ++ (next ++ name ++ last ++ owner ++ end')).toList =
      [p, entity.toList, q, name.toList, r, owner.toList].flatMap (· ++ ['\'']) := by
  have hregroup : (start ++ entity ++ middle ++ (next ++ name ++ last ++ owner ++ end')).toList =
      start.toList ++ entity.toList ++ (middle.toList ++ next.toList) ++ name.toList ++
        last.toList ++ owner.toList ++ end'.toList := by
    simp only [String.toList_append, List.append_assoc]
  rw [hregroup, hstart, hmiddle, hlast, hend]
  simp

theorem toList_takenError (entity name owner : String) :
    (takenError entity name owner).message.toList =
      ["invalid spec for entity ".toList, entity.toList, ": artifact name ".toList, name.toList,
        " is already produced by entity ".toList, owner.toList].flatMap (· ++ ['\'']) :=
  toList_quotedParts (by decide) (by decide) (by decide) (by decide) entity name owner

theorem startsWith_takenError (entity name owner : String) :
    (takenError entity name owner).message.toList.head? = some 'i' :=
  head?_append_text (head?_append_text (head?_append_text (by simp)))

theorem getLast?_takenError (entity name owner : String) :
    (takenError entity name owner).message.toList.getLast? = some '\'' :=
  getLast?_append_text (getLast?_append_text (by simp))

/-- An error with this text says that an artifact name is taken. -/
theorem exists_takenError {e : CompileError} {entity name owner : String}
    (h : e.message = (takenError entity name owner).message) :
    ∃ entity' name' owner', e = takenError entity' name' owner' := by
  have hstart : e.message.toList.head? = some 'i' := h ▸ startsWith_takenError entity name owner
  cases e with
  | invalidSpec entity' v =>
    by_contra hne
    have hother : ∀ name' owner', v ≠ .artifactNameTaken name' owner' := by
      rintro name' owner' rfl
      exact hne ⟨entity', name', owner', rfl⟩
    obtain ⟨c, hlast, hquote⟩ := (endsUnquoted_violation hother).append
      ("invalid spec for entity '" ++ entity' ++ "': ")
    have htaken := (congrArg (fun text => text.toList.getLast?) h).trans
      (getLast?_takenError entity name owner)
    exact hquote (Option.some.inj (hlast.symm.trans htaken))
  | unknownKind entity' kind =>
    have hother : (CompileError.unknownKind entity' kind).message.toList.head? = some 'u' :=
      head?_append_text (head?_append_text (head?_append_text (head?_append_text (by simp))))
    rw [hother] at hstart
    exact absurd (Option.some.inj hstart) (by decide)
  | ambiguousKeyDelimiter separator value =>
    have hother : (CompileError.ambiguousKeyDelimiter separator value).message.toList.head? =
        some 'k' :=
      head?_append_text (head?_append_text (head?_append_text (by simp)))
    rw [hother] at hstart
    exact absurd (Option.some.inj hstart) (by decide)

/-- The text of a taken name gives back the name and its owner. -/
theorem takenError_inj {entity name owner : Ident} {entity' name' owner' : String}
    (h : (takenError entity.text name.text owner.text).message =
      (takenError entity' name' owner').message) : name.text = name' ∧ owner.text = owner' := by
  have hfree (i : Ident) : '\'' ∉ i.text.toList := notMem_of_isPart_eq_false (by decide)
  have hpieces := congrArg String.toList h
  rw [toList_takenError, toList_takenError] at hpieces
  have hall : ∀ piece ∈ ["invalid spec for entity ".toList, entity.text.toList,
      ": artifact name ".toList, name.text.toList, " is already produced by entity ".toList,
      owner.text.toList], '\'' ∉ piece := by
    simp only [List.forall_mem_cons]
    exact ⟨by decide, hfree entity, by decide, hfree name, by decide, hfree owner, nofun⟩
  have hparts := pieces_inj hall (by rfl) hpieces
  simp only [List.cons.injEq, String.toList_inj, true_and, and_true] at hparts
  exact hparts.2

/-! ## 3. Reading a specification -/

/-- The error is not that of a taken artifact name. -/
def NotTaken (e : CompileError) : Prop := ∀ entity name owner, e ≠ takenError entity name owner

theorem notTaken_violation {entity : String} {v : Violation}
    (h : ∀ name owner, v ≠ .artifactNameTaken name owner) : NotTaken (.invalidSpec entity v) := by
  rintro entity' name owner ⟨⟩
  exact h name owner rfl

theorem failsWith_make (name : Ident) (kind : EntityKind) (businessKey descriptive : List Ident)
    (source : TableRef) :
    FailsWith NotTaken (EntitySpec.make name kind businessKey descriptive source) := by
  unfold EntitySpec.make
  split
  · split
    · split
      · exact failsWith_error (notTaken_violation (by simp))
      · exact failsWith_ok _
    · split
      · exact failsWith_error (notTaken_violation (by simp))
      · exact failsWith_error (notTaken_violation (by simp))
  · exact failsWith_error (notTaken_violation (by simp))

theorem failsWith_parseIdent (entity field text : String) :
    FailsWith NotTaken (EntitySpec.parseIdent entity field text) :=
  failsWith_mapError (fun _ => notTaken_violation (by simp)) _

theorem failsWith_requireField (entity field text : String) :
    FailsWith NotTaken (EntitySpec.requireField entity field text) := by
  unfold EntitySpec.requireField
  simp only
  split
  · exact failsWith_error (notTaken_violation (by simp))
  · exact failsWith_ok _

/-- No text is refused for a taken artifact name. -/
theorem failsWith_parse (name kind : String) (businessKey descriptive : List String)
    (source : String) :
    FailsWith NotTaken (EntitySpec.parse name kind businessKey descriptive source) := by
  unfold EntitySpec.parse
  refine (failsWith_requireField _ _ _).bind fun entity => ?_
  refine (failsWith_parseIdent _ _ _).bind fun ident => ?_
  refine (failsWith_requireField _ _ _).bind fun kindName => ?_
  cases EntityKind.ofNameIgnoringCase? kindName with
  | none =>
    refine failsWith_error ?_
    rintro _ _ _ ⟨⟩
  | some entityKind =>
    refine (failsWith_requireField _ _ _).bind fun sourceName => ?_
    refine (failsWith_mapError (fun _ => notTaken_violation (by simp)) _).bind fun table => ?_
    refine (failsWith_mapM (failsWith_parseIdent _ _) _).bind fun keys => ?_
    refine (failsWith_mapM (failsWith_parseIdent _ _) _).bind fun fields => ?_
    exact failsWith_make _ _ _ _ _

end DataVault.Entity
