/-
DataVault.Proofs.Digest.Encoding — what the text of a tuple says about the
tuple.

`encode_eq_ok_iff` is the specification that the other proofs use in place
of `encode`: a tuple is encoded exactly when the encoding admits each of its
values, and the text is then `joinedText` of the values with a missing one
read as the empty text. It is refused for the first value that the encoding
refuses (`encode_eq_error_iff`).

An encoding is `Unambiguous` if two tuples of one arity with the same text
hold the same values. Length prefixes are unambiguous because they can be read
back, whatever the values are (`DataVault.Proofs.Digest.Decoding`). Separators
are the subject of `DataVault.Proofs.Digest.Separator`.
-/
import DataVault.Digest.KeyEncoding
import DataVault.Proofs.Results

namespace DataVault.Digest.KeyEncoding

open DataVault.Entity DataVault.Results DataVault.Text

/-! ## 1. Success -/

/-- The encoding takes the value: a separator does not occur in it. -/
def Admits : KeyEncoding → String → Prop
  | delimited separator, value => separator ≠ "" → ¬ separator.toList <:+: value.toList
  | lengthPrefixed, _ => True

/-- The text of a tuple of values that the encoding admits. -/
def joinedText : KeyEncoding → List String → String
  | delimited separator, texts => String.intercalate separator texts
  | lengthPrefixed, texts => String.join (texts.map prefixed)

theorem undelimited_eq_ok_iff {separator value text : String} :
    undelimited separator value = .ok text ↔
      (delimited separator).Admits value ∧ value = text := by
  simp only [undelimited, Admits, ← occurs_iff]
  by_cases hempty : separator = ""
  · simp [hempty]
  · by_cases hoccurs : occurs separator value = true <;> simp [hempty, hoccurs]

theorem mapM_undelimited_eq_ok_iff {separator : String} {values : List (Option String)}
    {texts : List String} :
    (values.mapM fun value => undelimited separator (textOf value)) = .ok texts ↔
      (∀ value ∈ values, (delimited separator).Admits (textOf value)) ∧
        values.map textOf = texts := by
  rw [mapM_eq_ok_iff]
  simp only [undelimited_eq_ok_iff]
  rw [List.forall₂_and_left, ← List.forall₂_map_left_iff, List.forall₂_eq_eq_eq]

/-- A tuple has a text exactly when each of its values is admitted. -/
theorem encode_eq_ok_iff {encoding : KeyEncoding} {values : List (Option String)} {text : String} :
    encoding.encode values = .ok text ↔
      (∀ value ∈ values, encoding.Admits (textOf value)) ∧
        encoding.joinedText (values.map textOf) = text := by
  cases encoding with
  | lengthPrefixed => simp [encode, Admits, joinedText, pure_eq_ok_iff, Function.comp_def]
  | delimited separator =>
    simp only [encode, joinedText, bind_eq_ok_iff, pure_eq_ok_iff, mapM_undelimited_eq_ok_iff]
    constructor
    · rintro ⟨_, ⟨hall, rfl⟩, htext⟩
      exact ⟨hall, htext⟩
    · rintro ⟨hall, htext⟩
      exact ⟨values.map textOf, ⟨hall, rfl⟩, htext⟩

theorem digest_eq_ok_iff {encoding : KeyEncoding} {values : List (Option String)} {hash : String} :
    encoding.digest values = .ok hash ↔
      ∃ text, encoding.encode values = .ok text ∧ Sha256.hexDigest text = hash :=
  map_eq_ok_iff

/-! ## 2. Failure -/

/-- The encoding refuses a value, in which its separator occurs. -/
def Refuses (encoding : KeyEncoding) (value : Option String) (e : CompileError) : Prop :=
  ∃ separator, encoding = delimited separator ∧ separator ≠ "" ∧
    separator.toList <:+: (textOf value).toList ∧
    e = .ambiguousKeyDelimiter separator (textOf value)

theorem undelimited_eq_error_iff {separator : String} {value : Option String} {e : CompileError} :
    undelimited separator (textOf value) = .error e ↔ (delimited separator).Refuses value e := by
  simp only [undelimited, Refuses, ← occurs_iff, delimited.injEq, exists_eq_left']
  by_cases hempty : separator = ""
  · simp [hempty]
  · by_cases hoccurs : occurs separator (textOf value) = true
    · simpa [hempty, hoccurs] using eq_comm
    · simp [hempty, hoccurs]

/-- A tuple has no text exactly when one of its values is refused, and the first
such value is reported. -/
theorem encode_eq_error_iff {encoding : KeyEncoding} {values : List (Option String)}
    {e : CompileError} :
    encoding.encode values = .error e ↔ FirstFault encoding.Refuses values e := by
  cases encoding with
  | lengthPrefixed =>
    have hnone : ¬ ∃ e, FirstFault lengthPrefixed.Refuses values e := by
      simp [exists_firstFault_iff, Refuses]
    simpa [encode, pure_ne_error] using not_exists.mp hnone e
  | delimited separator =>
    simp only [encode, bind_eq_error_iff, pure_ne_error, and_false, exists_false, or_false,
      mapM_eq_error_iff, undelimited_eq_error_iff]

theorem digest_eq_error_iff {encoding : KeyEncoding} {values : List (Option String)}
    {e : CompileError} :
    encoding.digest values = .error e ↔ FirstFault encoding.Refuses values e := by
  rw [← encode_eq_error_iff, digest]
  cases encoding.encode values <;> simp [Except.map]

/-! ## 3. Ambiguity -/

/-- Two tuples of one arity with the same text hold the same values, a
missing one being the empty text. -/
def Unambiguous (encoding : KeyEncoding) : Prop :=
  ∀ left right : List (Option String), left.length = right.length →
    ∀ text, encoding.encode left = .ok text → encoding.encode right = .ok text →
      left.map textOf = right.map textOf

/-- Two tuples of an arity have the same text and do not hold the same
values. -/
def Collides (encoding : KeyEncoding) (count : Nat) : Prop :=
  ∃ left right : List (Option String), left.length = count ∧ right.length = count ∧
    left.map textOf ≠ right.map textOf ∧
    ∃ text, encoding.encode left = .ok text ∧ encoding.encode right = .ok text

theorem Unambiguous.not_collides {encoding : KeyEncoding} (h : encoding.Unambiguous)
    (count : Nat) : ¬ encoding.Collides count := by
  rintro ⟨left, right, hl, hr, hne, text, hleft, hright⟩
  exact hne (h left right (hl.trans hr.symm) text hleft hright)

end DataVault.Digest.KeyEncoding
