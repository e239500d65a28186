/-
DataVault.Proofs.CommandLine.Delimiters — the written forms of a key delimiter.

A key delimiter is documented as a sequence of items: characters, and the
escapes of a tab, of a backslash and of an octet in two hexadecimal digits
(`Item`). The reader hands what stands behind `\x` to a reader of numbers,
which is content with less: a plus sign may take the place of the first digit,
and where the text ends after one digit that one is enough. So all that is
written as documented is read as documented, and beyond that
`unescapeDelimiter_eq_ok_iff` says what else is read.
-/
import DataVault.CommandLine.Config
import DataVault.Proofs.Results

namespace DataVault.CommandLine

open DataVault.Results DataVault.Text

/-! ## 1. Hexadecimal digits -/

/-- The character is the digit of a number below sixteen, in either case. -/
def HexDigit (c : Char) (n : Nat) : Prop :=
  (c, n) ∈ "0123456789abcdef".toList.zipIdx ∨ (c, n) ∈ "0123456789ABCDEF".toList.zipIdx

instance (c : Char) (n : Nat) : Decidable (HexDigit c n) := inferInstanceAs (Decidable (_ ∨ _))

theorem hexValue?_eq_some_iff {c : Char} {n : Nat} : hexValue? c = some n ↔ HexDigit c n := by
  constructor
  · intro h
    have hsmall : c.toNat < 0x80 := by
      unfold hexValue? at h
      have hbound : ∀ d : Char, c ≤ d → c.toNat ≤ d.toNat := fun _ hle => hle
      split at h
      · next hdigit => exact Nat.lt_of_le_of_lt (hbound _ hdigit.2) (by decide)
      split at h
      · next hdigit => exact Nat.lt_of_le_of_lt (hbound _ hdigit.2) (by decide)
      split at h
      · next hdigit => exact Nat.lt_of_le_of_lt (hbound _ hdigit.2) (by decide)
      · cases h
    have hall : ∀ k < 0x80, ∀ m ∈ hexValue? (Char.ofNat k), HexDigit (Char.ofNat k) m := by
      decide +kernel
    have hchar := hall c.toNat hsmall n
    rw [Char.ofNat_toNat] at hchar
    exact hchar h
  · have hlower : ∀ p ∈ "0123456789abcdef".toList.zipIdx, hexValue? p.1 = some p.2 := by decide
    have hupper : ∀ p ∈ "0123456789ABCDEF".toList.zipIdx, hexValue? p.1 = some p.2 := by decide
    rintro (h | h)
    · exact hlower _ h
    · exact hupper _ h

/-! ## 2. Items -/

/-- The characters of an item as it is documented, and the character that it
stands for. -/
inductive Item : List Char → Char → Prop
  | plain {c : Char} (hc : c ≠ '\\') : Item [c] c
  | tab : Item ['\\', 't'] '\t'
  | backslash : Item ['\\', '\\'] '\\'
  | octet {a b : Char} {m n : Nat} (ha : HexDigit a m) (hb : HexDigit b n) :
      Item ['\\', 'x', a, b] (Char.ofNat (16 * m + n))

/-- An octet with a sign in the place of its first digit. -/
inductive SignedItem : List Char → Char → Prop
  | signed {b : Char} {n : Nat} (hb : HexDigit b n) :
      SignedItem ['\\', 'x', '+', b] (Char.ofNat n)

/-- An octet of one digit. -/
inductive ShortItem : List Char → Char → Prop
  | short {a : Char} {n : Nat} (ha : HexDigit a n) : ShortItem ['\\', 'x', a] (Char.ofNat n)

/-- The text is written as documented: a sequence of items, at least one, that
stand for the characters of the delimiter. -/
def Documented (raw delimiter : String) : Prop :=
  ∃ items : List (List Char × Char), items ≠ [] ∧ (∀ i ∈ items, Item i.1 i.2) ∧
    raw.toList = items.flatMap Prod.fst ∧ delimiter.toList = items.map Prod.snd

/-- The characters are items, documented or signed, with a short one at the
end or without. -/
def Itemized (cs delimiter : List Char) : Prop :=
  ∃ (items : List (List Char × Char)) (last : Option (List Char × Char)),
    (∀ i ∈ items, Item i.1 i.2 ∨ SignedItem i.1 i.2) ∧ (∀ i ∈ last, ShortItem i.1 i.2) ∧
      cs = (items ++ last.toList).flatMap Prod.fst ∧
        delimiter = (items ++ last.toList).map Prod.snd

theorem Itemized.nil : Itemized [] [] := ⟨[], none, nofun, nofun, rfl, rfl⟩

theorem Itemized.cons {item cs delimiter : List Char} {c : Char}
    (hitem : Item item c ∨ SignedItem item c) (h : Itemized cs delimiter) :
    Itemized (item ++ cs) (c :: delimiter) := by
  obtain ⟨items, last, hitems, hlast, rfl, rfl⟩ := h
  exact ⟨(item, c) :: items, last, List.forall_mem_cons.mpr ⟨hitem, hitems⟩, hlast, rfl, rfl⟩

theorem Itemized.last {item : List Char} {c : Char} (hitem : ShortItem item c) :
    Itemized item [c] := by
  refine ⟨[], some (item, c), nofun, ?_, (List.append_nil item).symm, rfl⟩
  rintro _ ⟨⟩
  exact hitem

/-! ## 3. Reading -/

section
variable {raw : String}

theorem octet?_one {a : Char} {n : Nat} : octet? raw [a] = .ok n ↔ HexDigit a n := by
  rw [← hexValue?_eq_some_iff]
  unfold octet?
  simp only [List.isEmpty_cons, Bool.false_eq_true, if_false, hexNumber?, List.foldlM_cons,
    List.foldlM_nil]
  cases hexValue? a <;> simp

/-- A sign in front of a digit is passed over. -/
theorem octet?_signed (b : Char) : octet? raw ['+', b] = octet? raw [b] := by
  unfold octet?
  simp

theorem not_hexDigit_plus (n : Nat) : ¬ HexDigit '+' n := by
  rw [← hexValue?_eq_some_iff]
  nofun

theorem octet?_two {a b : Char} {n : Nat} : octet? raw [a, b] = .ok n ↔
    (∃ x y, HexDigit a x ∧ HexDigit b y ∧ n = 16 * x + y) ∨ a = '+' ∧ HexDigit b n := by
  by_cases hsign : a = '+'
  · subst hsign
    simp only [octet?_signed, octet?_one, not_hexDigit_plus, false_and, exists_false, true_and,
      false_or]
  · have hunsigned : octet? raw [a, b] =
        (hexNumber? [a, b]).elim (.error (.invalidDigits raw)) .ok := by
      unfold octet?
      split
      · next heq => cases heq; exact absurd rfl hsign
      · simp only [List.isEmpty_cons, Bool.false_eq_true, if_false]
        cases hexNumber? [a, b] <;> rfl
    simp only [hunsigned, hsign, false_and, or_false, ← hexValue?_eq_some_iff, hexNumber?,
      List.foldlM_cons, List.foldlM_nil]
    cases hexValue? a <;> cases hexValue? b <;> simp [Nat.mul_comm, eq_comm]

/-- What is read is a sequence of items. -/
theorem itemized_of_expandEscapes {cs delimiter : List Char}
    (h : expandEscapes raw cs = .ok delimiter) : Itemized cs delimiter := by
  fun_induction expandEscapes raw cs generalizing delimiter with
  | case1 =>
    cases h
    exact .nil
  | case2 rest ih =>
    obtain ⟨more, hmore, rfl⟩ := map_eq_ok_iff.mp h
    exact .cons (.inl .tab) (ih hmore)
  | case3 rest ih =>
    obtain ⟨more, hmore, rfl⟩ := map_eq_ok_iff.mp h
    exact .cons (.inl .backslash) (ih hmore)
  | case4 a b rest ih =>
    obtain ⟨n, hn, h⟩ := bind_eq_ok_iff.mp h
    obtain ⟨more, hmore, rfl⟩ := map_eq_ok_iff.mp h
    rcases octet?_two.mp hn with ⟨x, y, ha, hb, rfl⟩ | ⟨rfl, hb⟩
    · exact .cons (.inl (.octet ha hb)) (ih hmore)
    · exact .cons (.inr (.signed hb)) (ih hmore)
  | case5 rest hshort =>
    obtain ⟨n, hn, rfl⟩ := map_eq_ok_iff.mp h
    match rest with
    | [] => cases hn
    | [a] => exact .last (.short (octet?_one.mp hn))
    | a :: b :: rest => exact (hshort a b rest rfl).elim
  | case6 => cases h
  | case7 => cases h
  | case8 c rest _ _ _ _ halone hescape ih =>
    obtain ⟨more, hmore, rfl⟩ := map_eq_ok_iff.mp h
    have hc : c ≠ '\\' := by
      rintro rfl
      cases rest with
      | nil => exact halone rfl rfl
      | cons letter tail => exact hescape letter tail rfl rfl
    exact .cons (.inl (.plain hc)) (ih hmore)

/-- An item is read as the character that it stands for, whatever follows. -/
theorem expandEscapes_append {item : List Char} {c : Char} (h : Item item c ∨ SignedItem item c)
    (cs : List Char) :
    expandEscapes raw (item ++ cs) = (expandEscapes raw cs).map (c :: ·) := by
  have hoctet : ∀ {a b : Char} {n : Nat}, octet? raw [a, b] = .ok n →
      expandEscapes raw ('\\' :: 'x' :: a :: b :: cs) =
        (expandEscapes raw cs).map (Char.ofNat n :: ·) := by
    intro a b n hn
    rw [expandEscapes, hn]
    rfl
  rcases h with hitem | hsigned
  · cases hitem with
    | plain hc =>
      rw [List.singleton_append, expandEscapes.eq_def]
      split
      case h_8 => next heq => cases heq; rfl
      all_goals next heq => cases heq <;> exact absurd rfl hc
    | tab => rfl
    | backslash => rfl
    | octet ha hb => exact hoctet (octet?_two.mpr (.inl ⟨_, _, ha, hb, rfl⟩))
  · cases hsigned with
    | signed hb => exact hoctet (octet?_two.mpr (.inr ⟨rfl, hb⟩))

theorem expandEscapes_eq_ok_iff {cs delimiter : List Char} :
    expandEscapes raw cs = .ok delimiter ↔ Itemized cs delimiter := by
  refine ⟨itemized_of_expandEscapes, ?_⟩
  rintro ⟨items, last, hitems, hlast, rfl, rfl⟩
  induction items with
  | nil =>
    cases last with
    | none => rfl
    | some i =>
      obtain ⟨item, c⟩ := i
      obtain @⟨a, n, ha⟩ := hlast _ rfl
      have hread : expandEscapes raw ['\\', 'x', a] = .ok [Char.ofNat n] := by
        rw [expandEscapes]
        · exact map_eq_ok_iff.mpr ⟨n, octet?_one.mpr ha, rfl⟩
        · nofun
      exact hread
  | cons i items ih =>
    obtain ⟨hitem, hrest⟩ := List.forall_mem_cons.mp hitems
    rw [List.cons_append, List.flatMap_cons, List.map_cons, expandEscapes_append hitem,
      ih hrest]
    rfl

end

/-! ## 4. Delimiters -/

/-- What is written as documented is read as documented. Whatever is read is a
non-empty sequence of items, which are documented but for signs in octets and an
octet of one digit at the end. -/
theorem unescapeDelimiter_eq_ok_iff (raw delimiter : String) :
    (Documented raw delimiter → unescapeDelimiter raw = .ok delimiter) ∧
      (unescapeDelimiter raw = .ok delimiter ↔
        delimiter ≠ "" ∧ Itemized raw.toList delimiter.toList) := by
  have hread : unescapeDelimiter raw = .ok delimiter ↔
      delimiter ≠ "" ∧ Itemized raw.toList delimiter.toList := by
    unfold unescapeDelimiter
    rw [bind_eq_ok_iff]
    constructor
    · rintro ⟨cs, hcs, h⟩
      split at h
      · cases h
      · next hne =>
        cases h
        rw [String.toList_ofList]
        refine ⟨fun hempty => hne ?_, expandEscapes_eq_ok_iff.mp hcs⟩
        rw [← String.toList_ofList (l := cs), hempty]
        rfl
    · rintro ⟨hne, hitems⟩
      refine ⟨_, expandEscapes_eq_ok_iff.mpr hitems, ?_⟩
      rw [if_neg, String.ofList_toList]
      rw [List.isEmpty_iff, String.toList_eq_nil_iff]
      exact hne
  refine ⟨?_, hread⟩
  rintro ⟨items, hne, hitems, hraw, hdelimiter⟩
  refine hread.mpr ⟨?_, items, none, fun i hi => .inl (hitems i hi), nofun, ?_, ?_⟩
  · rintro rfl
    exact hne (List.map_eq_nil_iff.mp hdelimiter.symm)
  · rw [hraw, Option.toList_none, List.append_nil]
  · rw [hdelimiter, Option.toList_none, List.append_nil]

/-- All escapes, and characters between them. -/
theorem unescapeDelimiter_eq_ok_iff_escapes :
    Documented "|\\t\\x1F\\\\" "|\t\x1f\\" ∧
      unescapeDelimiter "|\\t\\x1F\\\\" = .ok "|\t\x1f\\" := by
  have hitems : ∀ i ∈ [(['|'], '|'), (['\\', 't'], '\t'), (['\\', 'x', '1', 'F'], '\x1f'),
      (['\\', '\\'], '\\')], Item i.1 i.2 := by
    simp only [List.forall_mem_cons, List.not_mem_nil, false_imp_iff, implies_true, and_true]
    have hone : HexDigit '1' 1 := by decide
    exact ⟨.plain (by decide), .tab, .octet hone (by decide : HexDigit 'F' 15), .backslash⟩
  have hdocumented : Documented "|\\t\\x1F\\\\" "|\t\x1f\\" :=
    ⟨_, List.cons_ne_nil _ _, hitems, by decide, by decide⟩
  exact ⟨hdocumented, (unescapeDelimiter_eq_ok_iff _ _).1 hdocumented⟩

/-- Behind `\x` two digits are documented. -/
theorem exists_hexDigits {items : List (List Char × Char)} {cs : List Char}
    (hitems : ∀ i ∈ items, Item i.1 i.2) (h : '\\' :: 'x' :: cs = items.flatMap Prod.fst) :
    ∃ a b rest m n, cs = a :: b :: rest ∧ HexDigit a m ∧ HexDigit b n := by
  cases items with
  | nil => cases h
  | cons i items =>
    obtain ⟨item, c⟩ := i
    have hitem : Item item c := hitems _ List.mem_cons_self
    cases hitem with
    | plain hc => exact absurd (List.cons.inj h).1.symm hc
    | tab => cases h
    | backslash => cases h
    | octet ha hb =>
      cases h
      exact ⟨_, _, _, _, _, rfl, ha, hb⟩

/-- A sign in the place of a digit and a single digit at the end are read, and
neither is documented. -/
theorem reads_undocumented :
    (unescapeDelimiter "\\x+f" = .ok "\x0f" ∧ ∀ delimiter, ¬ Documented "\\x+f" delimiter) ∧
      unescapeDelimiter "\\x1" = .ok "\x01" ∧ ∀ delimiter, ¬ Documented "\\x1" delimiter := by
  refine ⟨⟨by decide, ?_⟩, by decide, ?_⟩
  · rintro delimiter ⟨items, -, hitems, hraw, -⟩
    obtain ⟨a, b, rest, m, n, hdigits, ha, -⟩ := exists_hexDigits hitems hraw
    cases hdigits
    exact not_hexDigit_plus m ha
  · rintro delimiter ⟨items, -, hitems, hraw, -⟩
    obtain ⟨a, b, rest, m, n, hdigits, -⟩ := exists_hexDigits hitems hraw
    cases hdigits

end DataVault.CommandLine
