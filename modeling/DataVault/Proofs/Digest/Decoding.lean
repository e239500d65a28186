/-
DataVault.Proofs.Digest.Decoding — length prefixes are read back.

A value may itself hold digits and colons, so no search for a colon finds the
place where a value ends. The count in front of it does: the text is read
from the left, and the first colon always ends a count, since a count holds
digits only. `readValue?` reads one value off the front of a text, and
`decode?` reads until nothing is left. A count with zeros in front of it is
not one that was written, so the texts that can be read are exactly those
that were written (`decode?_eq_some_iff`).

The count is one of characters, and the values are split as lists of
characters; octets play no part.
-/
import DataVault.Proofs.Digest.Encoding

namespace DataVault.Digest.KeyEncoding

open DataVault.Results

/-! ## 1. Counts -/

/-- The count that stands before the first colon, and what stands behind it. -/
def readCount? (cs : List Char) : Option (Nat × List Char) :=
  let digits := cs.takeWhile (· != ':')
  let count := Nat.ofDigitChars 10 digits 0
  match cs.dropWhile (· != ':') with
  | [] => none
  | _ :: rest => if Nat.toDigits 10 count = digits then some (count, rest) else none

theorem ne_colon_of_mem_toDigits {n : Nat} {c : Char} (hc : c ∈ Nat.toDigits 10 n) :
    (c != ':') = true := by
  have hdigit := Nat.isDigit_of_mem_toDigits (by decide) (by decide) hc
  rw [bne_iff_ne]
  rintro rfl
  exact absurd hdigit (by decide)

theorem readCount?_eq_some_iff {cs rest : List Char} {n : Nat} :
    readCount? cs = some (n, rest) ↔ cs = Nat.toDigits 10 n ++ ':' :: rest := by
  constructor
  · intro h
    unfold readCount? at h
    simp only at h
    split at h
    · cases h
    · next c behind hdrop =>
      split at h
      · next hdigits =>
        cases h
        have hcolon : c = ':' := by
          have hhead := List.head?_dropWhile_not (· != ':') cs
          rw [hdrop] at hhead
          simpa using hhead
        subst hcolon
        rw [hdigits, ← hdrop, List.takeWhile_append_dropWhile]
      · cases h
  · rintro rfl
    have hdigits : ∀ c ∈ Nat.toDigits 10 n, (c != ':') = true :=
      fun c hc => ne_colon_of_mem_toDigits hc
    have htake : (Nat.toDigits 10 n ++ ':' :: rest).takeWhile (· != ':') = Nat.toDigits 10 n := by
      rw [List.takeWhile_append_of_pos hdigits, List.takeWhile_cons_of_neg (by simp),
        List.append_nil]
    have hdrop : (Nat.toDigits 10 n ++ ':' :: rest).dropWhile (· != ':') = ':' :: rest := by
      rw [List.dropWhile_append_of_pos hdigits, List.dropWhile_cons_of_neg (by simp)]
    simp only [readCount?, htake, hdrop, Nat.ofDigitChars_ten_toDigits, if_true]

/-! ## 2. Values -/

/-- The value at the front of a text, and what follows it. -/
def readValue? (cs : List Char) : Option (String × List Char) := do
  let (count, rest) ← readCount? cs
  if count ≤ rest.length then some (.ofList (rest.take count), rest.drop count) else none

theorem toList_prefixed (value : String) :
    (prefixed value).toList = Nat.toDigits 10 value.length ++ ':' :: value.toList := by
  simp only [prefixed, String.toList_append, Nat.toString_eq_ofList_toDigits, String.toList_ofList,
    List.append_assoc]
  rfl

/-- A value is read exactly where it was written, whatever follows. -/
theorem readValue?_eq_some_iff {cs rest : List Char} {value : String} :
    readValue? cs = some (value, rest) ↔ cs = (prefixed value).toList ++ rest := by
  rw [toList_prefixed]
  constructor
  · intro h
    obtain ⟨⟨count, behind⟩, hcount, hvalue⟩ := Option.bind_eq_some_iff.mp h
    simp only at hvalue
    split at hvalue
    · next hle =>
      cases hvalue
      have hlength : (String.ofList (behind.take count)).length = count := by
        rw [← String.length_toList, String.toList_ofList, List.length_take, Nat.min_eq_left hle]
      rw [readCount?_eq_some_iff.mp hcount, hlength, String.toList_ofList, List.append_assoc,
        List.cons_append, List.take_append_drop]
    · cases hvalue
  · rintro rfl
    refine Option.bind_eq_some_iff.mpr ⟨(value.length, value.toList ++ rest), ?_, ?_⟩
    · rw [readCount?_eq_some_iff, List.append_assoc, List.cons_append]
    · have hle : value.length ≤ (value.toList ++ rest).length := by
        rw [List.length_append, String.length_toList]
        omega
      simp only [if_pos hle]
      rw [← String.length_toList, List.take_left, List.drop_left, String.ofList_toList]

theorem length_lt_of_readValue? {cs rest : List Char} {value : String}
    (h : readValue? cs = some (value, rest)) : rest.length < cs.length := by
  rw [readValue?_eq_some_iff.mp h, toList_prefixed, List.length_append, List.length_append,
    List.length_cons]
  omega

/-! ## 3. Texts -/

/-- Reads values until nothing is left. -/
def readValues? (cs : List Char) : Option (List String) :=
  match cs with
  | [] => some []
  | c :: more =>
      match _hread : readValue? (c :: more) with
      | none => none
      | some (value, rest) => (readValues? rest).map (value :: ·)
termination_by cs.length
decreasing_by exact length_lt_of_readValue? _hread

theorem readValues?_eq_some_iff {cs : List Char} {texts : List String} :
    readValues? cs = some texts ↔ cs = texts.flatMap fun text => (prefixed text).toList := by
  induction texts generalizing cs with
  | nil =>
    cases cs with
    | nil => simp [readValues?]
    | cons c more =>
      rw [readValues?]
      split <;> simp
  | cons text texts ih =>
    rw [List.flatMap_cons, ← readValue?_eq_some_iff]
    cases cs with
    | nil => simp [readValues?, readValue?, readCount?]
    | cons c more =>
      rw [readValues?]
      split
      · next hnone => simp [hnone]
      · next value rest hsome =>
        rw [hsome, Option.map_eq_some_iff]
        simp only [List.cons.injEq, Option.some.injEq, Prod.mk.injEq]
        constructor
        · rintro ⟨others, hothers, rfl, rfl⟩
          exact ⟨rfl, ih.mp hothers⟩
        · rintro ⟨rfl, hrest⟩
          exact ⟨texts, ih.mpr hrest, rfl, rfl⟩

/-- The values of a text of prefixed values. -/
def decode? (text : String) : Option (List String) := readValues? text.toList

/-- The texts that can be read are those that were written. -/
theorem decode?_eq_some_iff {text : String} {texts : List String} :
    decode? text = some texts ↔ lengthPrefixed.joinedText texts = text := by
  rw [decode?, readValues?_eq_some_iff, ← String.toList_inj, eq_comm]
  simp [joinedText, List.flatMap_map]

/-- A value that looks like a written one is read as it is. -/
example : decode? "3:1:a0:" = some ["1:a", ""] := by cbv

theorem encode_lengthPrefixed_iff {values : List (Option String)} {text : String} :
    lengthPrefixed.encode values = .ok text ↔ decode? text = some (values.map textOf) := by
  rw [encode_eq_ok_iff, decode?_eq_some_iff]
  exact and_iff_right fun _ _ => trivial

theorem lengthPrefixed_unambiguous : lengthPrefixed.Unambiguous := by
  intro left right _ text hleft hright
  have hsame :=
    (encode_lengthPrefixed_iff.mp hleft).symm.trans (encode_lengthPrefixed_iff.mp hright)
  exact Option.some.inj hsame

/-- Prefixed values are encoded without exception, read back as they were but
for a missing one, which is read as the empty text, and have a text that no
other values have, be they as many or not. -/
theorem lengthPrefixed_decodable (values : List (Option String)) :
    ∃ text, lengthPrefixed.encode values = .ok text ∧
      decode? text = some (values.map textOf) ∧
      ∀ others, lengthPrefixed.encode others = .ok text ↔
        others.map textOf = values.map textOf := by
  have hread := decode?_eq_some_iff.mpr (rfl : lengthPrefixed.joinedText (values.map textOf) = _)
  refine ⟨_, encode_lengthPrefixed_iff.mpr hread, hread, fun others => ?_⟩
  rw [encode_lengthPrefixed_iff, hread, Option.some.injEq, eq_comm]

end DataVault.Digest.KeyEncoding
