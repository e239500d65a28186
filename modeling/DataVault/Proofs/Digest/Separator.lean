/-
DataVault.Proofs.Digest.Separator — when a separator keeps values apart.

A separator that occurs in no value can still be found in two places of a
joined text, when one of its ends is also its beginning: with `||`, the end
of `a|` and half of the separator read as the separator. The border is the
only way in which this happens. `straddle` shows that the occurrence of an
unbordered separator after a value is where the value ends, and
`collision_of_border` builds two tuples with the same text from a border.
Hence tuples of two values or more collide exactly when the separator has a
border (`collides_iff_bordered`), and a delimited encoding is unambiguous
exactly when it has none, for the separators that `Settings.validate` lets
through as for all others that are not empty.
-/
import DataVault.Generate.Settings
import DataVault.Proofs.Digest.Encoding
import Mathlib.Data.List.Infix

namespace DataVault.Digest

open DataVault.Generate DataVault.Results KeyEncoding

/-! ## 1. Borders -/

/-- No beginning of the separator, but for the whole, is also an end. -/
def Unbordered (separator : List Char) : Prop :=
  ∀ border, border ≠ [] → border <+: separator → border <:+ separator → border = separator

instance : DecidablePred Unbordered := fun separator =>
  decidable_of_iff
    (∀ border ∈ separator.inits, border ≠ [] → border <:+ separator → border = separator)
    ⟨fun h border hne hprefix => h border (List.mem_inits _ _ |>.mpr hprefix) hne,
      fun h border hmem hne => h border hne ((List.mem_inits _ _).mp hmem)⟩

/-- A separator of one character has no border. -/
theorem unbordered_singleton (c : Char) : Unbordered [c] := by
  intro border hne hprefix _
  obtain ⟨rest, hrest⟩ := hprefix
  obtain ⟨a, tail, rfl⟩ := List.exists_cons_of_ne_nil hne
  obtain ⟨rfl, hnil⟩ := List.cons.inj hrest
  rw [(List.append_eq_nil_iff.mp hnil).1]

/-! ## 2. Unbordered separators -/

section
variable {separator : List Char}

/-- A text that starts with an unbordered separator does not have it again
before the first one has ended. -/
theorem gap_eq_nil (hborder : Unbordered separator) {value gap r t : List Char}
    (hvalue : ¬ separator <:+: value ++ gap)
    (h : separator ++ r = gap ++ (separator ++ t)) : gap = [] := by
  have hgap : ¬ separator <:+: gap := fun hin => hvalue (hin.trans (List.suffix_append _ _).isInfix)
  rcases List.append_eq_append_iff.mp h with ⟨rest, rfl, -⟩ | ⟨border, hsplit, hrest⟩
  · exact absurd (List.prefix_append separator rest).isInfix hgap
  · have hsuffix : border <:+ separator := ⟨gap, hsplit.symm⟩
    have hprefix : border <+: separator :=
      List.prefix_of_prefix_length_le ⟨r, hrest.symm⟩ (List.prefix_append separator t)
        hsuffix.length_le
    by_cases hne : border = []
    · rw [hne, List.append_nil] at hsplit
      rw [hsplit] at hgap
      exact absurd List.infix_rfl hgap
    · have hlength := congrArg List.length hsplit
      rw [hborder border hne hprefix hsuffix, List.length_append] at hlength
      exact List.eq_nil_of_length_eq_zero (by omega)

/-- Where an unbordered separator follows a value is determined by the text. -/
theorem straddle (hborder : Unbordered separator) {a b r t : List Char}
    (ha : ¬ separator <:+: a) (hb : ¬ separator <:+: b)
    (h : a ++ separator ++ r = b ++ separator ++ t) : a = b ∧ r = t := by
  rw [List.append_assoc, List.append_assoc] at h
  have hab : a = b := by
    rcases List.append_eq_append_iff.mp h with ⟨gap, rfl, hgap⟩ | ⟨gap, rfl, hgap⟩
    · rw [gap_eq_nil hborder hb hgap, List.append_nil]
    · rw [gap_eq_nil hborder ha hgap, List.append_nil]
  subst hab
  exact ⟨rfl, List.append_cancel_left (List.append_cancel_left h)⟩

/-- Values joined with an unbordered separator that occurs in none of them
can be told apart. -/
theorem intercalate_inj (hborder : Unbordered separator) : ∀ {left right : List (List Char)},
    left.length = right.length → (∀ a ∈ left, ¬ separator <:+: a) →
    (∀ b ∈ right, ¬ separator <:+: b) →
    separator.intercalate left = separator.intercalate right → left = right
  | [], [], _, _, _, _ => rfl
  | [a], [b], _, _, _, h => by simpa using h
  | a :: a' :: left, b :: b' :: right, hlength, hl, hr, h => by
      rw [List.intercalate_cons_cons, List.intercalate_cons_cons] at h
      rw [List.forall_mem_cons] at hl hr
      obtain ⟨rfl, hrest⟩ := straddle hborder hl.1 hr.1 h
      rw [intercalate_inj hborder (by simpa using hlength) hl.2 hr.2 hrest]

end

/-- An unbordered separator makes a delimited encoding unambiguous. -/
theorem delimited_unambiguous {separator : String} (hne : separator ≠ "")
    (hborder : Unbordered separator.toList) : (delimited separator).Unambiguous := by
  intro left right hlength text hleft hright
  obtain ⟨hl, htext⟩ := encode_eq_ok_iff.mp hleft
  obtain ⟨hr, rfl⟩ := encode_eq_ok_iff.mp hright
  have hlists : (left.map textOf).map String.toList = (right.map textOf).map String.toList := by
    refine intercalate_inj hborder (by simpa using hlength) ?_ ?_ ?_
    · simpa using fun value hvalue => hl value hvalue hne
    · simpa using fun value hvalue => hr value hvalue hne
    · simpa [joinedText] using congrArg String.toList htext
  exact List.map_injective_iff.mpr (fun _ _ => String.toList_inj.mp) hlists

/-! ## 3. Bordered separators -/

/-- A beginning of the separator, neither empty nor the whole, is also an
end. -/
def Bordered (separator : List Char) : Prop :=
  ∃ border, border ≠ [] ∧ border ≠ separator ∧ border <+: separator ∧ border <:+ separator

theorem not_bordered_iff {separator : List Char} :
    ¬ Bordered separator ↔ Unbordered separator := by
  constructor
  · intro h border hne hprefix hsuffix
    by_contra hproper
    exact h ⟨border, hne, hproper, hprefix, hsuffix⟩
  · rintro h ⟨border, hne, hproper, hprefix, hsuffix⟩
    exact hproper (h border hne hprefix hsuffix)

/-- The rest of a separator after a border, and what stands before the
border, make two pairs of values with one text, and so do they in front of
other values. -/
theorem collision_of_border {border before after : String}
    (h : border ++ after = before ++ border) (rest : List String) :
    (delimited (before ++ border)).joinedText ("" :: after :: rest) =
      (delimited (before ++ border)).joinedText (before :: "" :: rest) := by
  have hshift : ∀ tail, border ++ (after ++ tail) = before ++ (border ++ tail) := by
    intro tail
    rw [← String.append_assoc, h, String.append_assoc]
  cases rest with
  | nil => simp [joinedText, String.append_assoc, h]
  | cons text rest => simp [joinedText, String.append_assoc, hshift]

/-- A text shorter than the separator is admitted. -/
theorem admits_of_length_lt {separator value : String} (h : value.length < separator.length) :
    (delimited separator).Admits value := by
  intro _ hin
  have := hin.length_le
  simp only [String.length_toList] at this
  omega

/-- A border makes tuples collide at every arity from two on: the two pairs
are followed by empty values. -/
theorem Bordered.collides {separator : String} (h : Bordered separator.toList) (count : Nat) :
    (delimited separator).Collides (count + 2) := by
  obtain ⟨border, hne, hproper, ⟨after, hafter⟩, ⟨before, hbefore⟩⟩ := h
  have hseparator : separator = .ofList before ++ .ofList border := by
    rw [← String.toList_inj, ← hbefore, String.toList_append]
    simp
  have hborder : border.length ≠ 0 := fun hzero => hne (List.eq_nil_of_length_eq_zero hzero)
  have hsum := congrArg List.length hafter
  have hsum' := congrArg List.length hbefore
  rw [List.length_append, String.length_toList] at hsum hsum'
  -- All values are shorter than the separator.
  have hadmits : ∀ first second : String, first.length < separator.length →
      second.length < separator.length →
      ∀ value ∈ some first :: some second :: List.replicate count (some ""),
        (delimited separator).Admits (textOf value) := by
    intro first second hfirst hsecond value hvalue
    refine admits_of_length_lt ?_
    simp only [List.mem_cons, List.mem_replicate] at hvalue
    rcases hvalue with rfl | rfl | ⟨-, rfl⟩
    · exact hfirst
    · exact hsecond
    · simp only [textOf, Option.getD_some, String.length_empty]
      omega
  have hsame : String.ofList border ++ .ofList after = .ofList before ++ .ofList border := by
    rw [← String.toList_inj, String.toList_append, String.toList_append]
    simp [hafter, hbefore]
  have htexts :
      (delimited separator).joinedText
          ((some (.ofList before) :: some "" :: List.replicate count (some "")).map textOf) =
        (delimited separator).joinedText
          ((some "" :: some (.ofList after) :: List.replicate count (some "")).map textOf) := by
    rw [hseparator]
    exact (collision_of_border hsame _).symm
  refine ⟨some "" :: some (.ofList after) :: .replicate count (some ""),
    some (.ofList before) :: some "" :: .replicate count (some ""), by simp, by simp, ?_, _,
    encode_eq_ok_iff.mpr ⟨hadmits _ _ ?_ ?_, rfl⟩,
    encode_eq_ok_iff.mpr ⟨hadmits _ _ ?_ ?_, htexts⟩⟩
  · intro hcollide
    have hnil : before = [] := by simpa [textOf] using (List.cons.inj hcollide).1.symm
    rw [hnil] at hbefore
    exact hproper hbefore
  all_goals
    simp
    omega

/-- A separator that keeps all pairs apart has no border. -/
theorem unbordered_of_unambiguous {separator : String} (h : (delimited separator).Unambiguous) :
    Unbordered separator.toList :=
  not_bordered_iff.mp fun hborder => h.not_collides 2 (hborder.collides 0)

/-! ## 4. Collisions at each arity -/

/-- A tuple is refused exactly when the separator occurs in a value. -/
theorem delimited_refuses_iff {separator : String} (hne : separator ≠ "")
    {values : List (Option String)} :
    (∃ error, (delimited separator).encode values = .error error) ↔
      ∃ value ∈ values, separator.toList <:+: (textOf value).toList := by
  have hadmits : ∀ value : String,
      (delimited separator).Admits value ↔ ¬ separator.toList <:+: value.toList :=
    fun value => ⟨fun h => h hne, fun h _ => h⟩
  cases hencode : (delimited separator).encode values with
  | ok text =>
    have hall := (encode_eq_ok_iff.mp hencode).1
    simp only [hadmits] at hall
    simpa using hall
  | error error =>
    simp only [Except.error.injEq, exists_eq', true_iff]
    by_contra hnone
    have hall : ∀ value ∈ values, (delimited separator).Admits (textOf value) :=
      fun value hvalue => (hadmits _).mpr fun hin => hnone ⟨value, hvalue, hin⟩
    rw [encode_eq_ok_iff.mpr ⟨hall, rfl⟩] at hencode
    cases hencode

/-- Without a second value there is no separator to misread: a single value is
its own text. -/
theorem two_le_of_collides {separator : String} {count : Nat}
    (h : (delimited separator).Collides count) : 2 ≤ count := by
  obtain ⟨left, right, hleft, hright, hne, text, hl, hr⟩ := h
  by_contra hlt
  rcases (by omega : count = 0 ∨ count = 1) with rfl | rfl
  · rw [List.eq_nil_of_length_eq_zero hleft, List.eq_nil_of_length_eq_zero hright] at hne
    exact hne rfl
  · obtain ⟨a, rfl⟩ := List.length_eq_one_iff.mp hleft
    obtain ⟨b, rfl⟩ := List.length_eq_one_iff.mp hright
    have hla : textOf a = text := by simpa [joinedText] using (encode_eq_ok_iff.mp hl).2
    have hrb : textOf b = text := by simpa [joinedText] using (encode_eq_ok_iff.mp hr).2
    exact hne (by simp [hla, hrb])

/-- What a separator that is not empty does: a tuple is refused exactly when
the separator occurs in one of its values, and tuples of an arity collide
exactly when they have two values at least and the separator has a border. A
single character has none, so with it no tuples collide. -/
theorem collides_iff_bordered (separator : String) (hne : separator ≠ "") :
    (∀ values, (∃ error, (delimited separator).encode values = .error error) ↔
      ∃ value ∈ values, separator.toList <:+: (textOf value).toList) ∧
    (∀ count, (delimited separator).Collides count ↔ 2 ≤ count ∧ Bordered separator.toList) ∧
    (separator.length = 1 → ∀ count, ¬ (delimited separator).Collides count) := by
  have hcollides : ∀ count,
      (delimited separator).Collides count ↔ 2 ≤ count ∧ Bordered separator.toList := by
    intro count
    constructor
    · intro h
      refine ⟨two_le_of_collides h, ?_⟩
      by_contra hborder
      exact (delimited_unambiguous hne (not_bordered_iff.mp hborder)).not_collides count h
    · rintro ⟨hcount, hborder⟩
      obtain ⟨more, rfl⟩ := Nat.exists_eq_add_of_le' hcount
      exact hborder.collides more
  refine ⟨fun values => delimited_refuses_iff hne, hcollides, fun hlength count h => ?_⟩
  obtain ⟨c, hc⟩ := List.length_eq_one_iff.mp (String.length_toList.trans hlength)
  have hborder := ((hcollides count).mp h).2
  rw [hc] at hborder
  exact not_bordered_iff.mpr (unbordered_singleton c) hborder

theorem collides_iff_bordered_bars :
    "||" ≠ "" ∧
      (∀ values, (∃ error, (delimited "||").encode values = .error error) ↔
        ∃ value ∈ values, "||".toList <:+: (textOf value).toList) ∧
      (∀ count, (delimited "||").Collides count ↔ 2 ≤ count ∧ Bordered "||".toList) ∧
      ("||".length = 1 → ∀ count, ¬ (delimited "||").Collides count) :=
  ⟨by decide, collides_iff_bordered "||" (by decide)⟩

/-! ## 5. Accepted separators -/

/-- Accepted settings have no empty separator. -/
theorem separator_ne_empty {s : Settings} {separator : String}
    (hencoding : s.keyEncoding = .delimited separator) (hvalid : s.validate = .ok ()) :
    separator ≠ "" := by
  rintro rfl
  simp only [Settings.validate, bind_eq_ok_iff, hencoding] at hvalid
  obtain ⟨⟨⟩, haccepted, -⟩ := hvalid
  cases haccepted

/-- Accepted settings encode keys without ambiguity exactly when their
separator has no border. -/
theorem validated_unambiguous_iff (s : Settings) (separator : String)
    (hencoding : s.keyEncoding = .delimited separator) (hvalid : s.validate = .ok ()) :
    s.keyEncoding.Unambiguous ↔ Unbordered separator.toList := by
  rw [hencoding]
  exact ⟨unbordered_of_unambiguous,
    delimited_unambiguous (separator_ne_empty hencoding hvalid)⟩

/-- The standard settings with two bars between values. -/
def barSettings : Settings := { Settings.standard with keyEncoding := .delimited "||" }

theorem validated_unambiguous_iff_bars :
    barSettings.validate = .ok () ∧
      (barSettings.keyEncoding.Unambiguous ↔ Unbordered "||".toList) :=
  ⟨rfl, validated_unambiguous_iff barSettings "||" rfl rfl⟩

/-- Two bars are accepted, and two different pairs of values have one text. -/
theorem validated_collision :
    barSettings.validate = .ok () ∧
      barSettings.keyEncoding.encode [some "a|", some "b"] = .ok "a|||b" ∧
      barSettings.keyEncoding.encode [some "a", some "|b"] = .ok "a|||b" ∧
      ¬ barSettings.keyEncoding.Unambiguous := by
  refine ⟨rfl, by decide, by decide, fun h => ?_⟩
  have := h [some "a|", some "b"] [some "a", some "|b"] rfl "a|||b" (by decide) (by decide)
  exact absurd this (by decide)

end DataVault.Digest
