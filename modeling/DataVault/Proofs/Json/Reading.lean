/-
DataVault.Proofs.Json.Reading — spelled values are read back.

A value can be spelled in many ways: blanks may stand between its parts, and
the parts are separated by commas. `Spells` says which texts spell a value,
and every one of them is read as that value, whatever text follows it. The
reader and the grammar go the same way through the text, so the proof is one
step for each of the three readers, with less fuel behind it (`reads`).

Numbers are spelled nowhere: what is written here and read back holds none.
-/
import DataVault.Json.Reader
import DataVault.Json.Value

namespace DataVault.Json

open DataVault.Document DataVault.Text

/-! ## 1. Strings -/

/-- How a written character is read: the control characters without a short escape as code
units. -/
def pieceOf (c : Char) : Piece :=
  if c.toNat < 0x20 ∧ c ∉ ['\x08', '\t', '\n', '\x0c', '\r'] then .unit c.toNat else .char c

/-- The four digits of a control character give its number back. -/
theorem hexPadded_control : ∀ n < 0x20, ∃ a b c d,
    hexPadded 4 n = [a, b, c, d] ∧ hexNumber? [a, b, c, d] = some n := by
  intro n hn
  refine ⟨'0', '0', hexDigit (n / 16), hexDigit (n % 16), hexPadded_byte (by omega), ?_⟩
  revert n
  decide

theorem pieces?_plain {c : Char} (hquote : c ≠ '"') (hslash : c ≠ '\\') (hc : ¬ c.toNat < 0x20)
    (rest : List Char) :
    pieces? (c :: rest) = (pieces? rest).map fun p => (.char c :: p.1, p.2) := by
  rw [pieces?.eq_def]
  split
  · next h => cases h
  · next h => cases h; exact absurd rfl hquote
  · next h => cases h; exact absurd rfl hslash
  · next h => cases h; exact absurd rfl hslash
  · next h =>
    cases h
    rw [if_neg hc]
    cases pieces? rest <;> rfl

theorem pieces?_stringPiece (c : Char) (rest : List Char) :
    pieces? (stringPiece c ++ rest) = (pieces? rest).map fun p => (pieceOf c :: p.1, p.2) := by
  have hshort : ∀ e d, shortEscape? e = some d → e ≠ 'u' → pieces? ('\\' :: e :: rest) =
      (pieces? rest).map fun p => (.char d :: p.1, p.2) := by
    intro e d hescape hu
    rw [pieces?.eq_def]
    split
    · next h => cases h
    · next h => cases h
    · next h => cases h; exact absurd rfl hu
    · next h =>
      cases h
      rw [hescape]
      cases pieces? rest <;> rfl
    · next hno h => cases h; exact (hno _ _ rfl rfl).elim
  unfold stringPiece
  split
  · next h => subst h; exact hshort '"' '"' rfl (by decide)
  split
  · next h => subst h; exact hshort '\\' '\\' rfl (by decide)
  split
  · next h => subst h; exact hshort 'b' '\x08' rfl (by decide)
  split
  · next h => subst h; exact hshort 't' '\t' rfl (by decide)
  split
  · next h => subst h; exact hshort 'n' '\n' rfl (by decide)
  split
  · next h => subst h; exact hshort 'f' '\x0c' rfl (by decide)
  split
  · next h => subst h; exact hshort 'r' '\x0d' rfl (by decide)
  split
  · next hb ht hn hf hr hcontrol =>
    have hpiece : pieceOf c = .unit c.toNat := if_pos ⟨hcontrol, by simp [hb, ht, hn, hf, hr]⟩
    obtain ⟨x, y, z, w, hdigits, hnumber⟩ := hexPadded_control c.toNat hcontrol
    rw [hdigits, hpiece]
    simp only [List.cons_append, List.nil_append, pieces?, hnumber]
    cases pieces? rest <;> rfl
  · next hquote hslash _ _ _ _ _ hcontrol =>
    have hpiece : pieceOf c = .char c := if_neg fun h => hcontrol h.1
    rw [hpiece]
    exact pieces?_plain hquote hslash hcontrol rest

/-- A written text is read up to its closing quote. -/
theorem pieces?_written (cs rest : List Char) :
    pieces? (cs.flatMap stringPiece ++ '"' :: rest) = some (cs.map pieceOf, rest) := by
  induction cs with
  | nil => rfl
  | cons c cs ih =>
    rw [List.flatMap_cons, List.append_assoc, pieces?_stringPiece, ih]
    rfl

/-- A code unit below the surrogates is a character of its own. -/
theorem charsOf?_unit {n : Nat} (h : n < 0xD800) (ps : List Piece) :
    charsOf? (.unit n :: ps) = (charsOf? ps).map (Char.ofNat n :: ·) := by
  have hhigh : ¬ (0xD800 ≤ n ∧ n < 0xDC00) := by omega
  have hlow : ¬ (0xDC00 ≤ n ∧ n < 0xE000) := by omega
  have hsurrogate : ¬ (0xD800 ≤ n ∧ n < 0xE000) := by omega
  cases ps with
  | nil => simp [charsOf?, hsurrogate]
  | cons p ps =>
    cases p with
    | char c => simp [charsOf?, hsurrogate]
    | unit low => rw [charsOf?, if_neg hhigh, if_neg hlow]

theorem charsOf?_pieceOf (cs : List Char) : charsOf? (cs.map pieceOf) = some cs := by
  induction cs with
  | nil => rfl
  | cons c cs ih =>
    rw [List.map_cons, pieceOf]
    split
    · next h =>
      rw [charsOf?_unit (by omega), ih, Char.ofNat_toNat]
      rfl
    · rw [charsOf?, ih]
      rfl

/-- A text is read up to its closing quote. -/
theorem textOf?_pieceOf (s : String) : textOf? (s.toList.map pieceOf) = some s := by
  rw [textOf?, charsOf?_pieceOf, Option.map_some, String.ofList_toList]

/-! ## 2. Spellings -/

/-- The characters are all blank. -/
def Blanks (cs : List Char) : Prop := ∀ c ∈ cs, isSpace c = true

mutual

/-- The characters spell the value, with blanks wherever they may stand inside it. Numbers are
left out: they are never read back. -/
inductive Spells : Value → List Char → Prop
  | null : Spells .null ['n', 'u', 'l', 'l']
  | yes : Spells (.bool true) ['t', 'r', 'u', 'e']
  | no : Spells (.bool false) ['f', 'a', 'l', 's', 'e']
  | string (s : String) : Spells (.string s) ('"' :: (s.toList.flatMap stringPiece ++ ['"']))
  | emptyArray : Spells (.array []) ['[', ']']
  | array {items : List Value} {b cs : List Char} (hb : Blanks b) (h : SpellsItems items cs) :
      Spells (.array items) ('[' :: (b ++ cs))
  | emptyObject : Spells (.object []) ['\x7b', '\x7d']
  | object {members : List (String × Value)} {b cs : List Char} (hb : Blanks b)
      (h : SpellsMembers members cs) : Spells (.object members) ('\x7b' :: (b ++ cs))

/-- The characters spell the items, up to the closing bracket and with it. -/
inductive SpellsItems : List Value → List Char → Prop
  | last {v : Value} {cs b : List Char} (h : Spells v cs) (hb : Blanks b) :
      SpellsItems [v] (cs ++ (b ++ [']']))
  | more {v : Value} {items : List Value} {cs b ds : List Char} (h : Spells v cs) (hb : Blanks b)
      (hrest : SpellsItems items ds) : SpellsItems (v :: items) (cs ++ ',' :: (b ++ ds))

/-- The characters spell the members, up to the closing brace and with it. -/
inductive SpellsMembers : List (String × Value) → List Char → Prop
  | last {n : String} {v : Value} {b cs b' : List Char} (hb : Blanks b) (h : Spells v cs)
      (hb' : Blanks b') :
      SpellsMembers [(n, v)]
        ('"' :: (n.toList.flatMap stringPiece ++ '"' :: ':' :: (b ++ (cs ++ (b' ++ ['\x7d'])))))
  | more {n : String} {v : Value} {members : List (String × Value)} {b cs b' ds : List Char}
      (hb : Blanks b) (h : Spells v cs) (hb' : Blanks b') (hrest : SpellsMembers members ds) :
      SpellsMembers ((n, v) :: members)
        ('"' :: (n.toList.flatMap stringPiece ++
          '"' :: ':' :: (b ++ (cs ++ ',' :: (b' ++ ds)))))

end

mutual

/-- What is read from a spelling of the value. -/
def Value.node : Value → Node
  | .null => .scalar .null
  | .bool b => .scalar (.ofBool b)
  | .number _ => .scalar .other
  | .string s => .scalar (.ofText s)
  | .array items => .list (nodes items)
  | .object members => .named (memberNodes members)

def Value.nodes : List Value → List Node
  | [] => []
  | v :: items => v.node :: nodes items

def Value.memberNodes : List (String × Value) → List (String × Node)
  | [] => []
  | (name, v) :: members => (name, v.node) :: memberNodes members

end

mutual

/-- The value holds no number, and its lists and tables are not nested too deep where some are
open around it. -/
def Value.Fits (depth : Nat) : Value → Prop
  | .null | .bool _ | .string _ => True
  | .number _ => False
  | .array items => depth < maxDepth ∧ FitAll (depth + 1) items
  | .object members => depth < maxDepth ∧ MembersFit (depth + 1) members

def Value.FitAll (depth : Nat) : List Value → Prop
  | [] => True
  | v :: items => v.Fits depth ∧ FitAll depth items

def Value.MembersFit (depth : Nat) : List (String × Value) → Prop
  | [] => True
  | (_, v) :: members => v.Fits depth ∧ MembersFit depth members

end

/-! ## 3. Reading -/

theorem skipSpace_blanks {b : List Char} (hb : Blanks b) {c : Char} (hc : isSpace c = false)
    (rest : List Char) : skipSpace (b ++ c :: rest) = c :: rest := by
  unfold skipSpace
  rw [List.dropWhile_append_of_pos hb, List.dropWhile_cons_of_neg (by simp [hc])]

theorem skipSpace_cons {c : Char} (hc : isSpace c = false) (rest : List Char) :
    skipSpace (c :: rest) = c :: rest :=
  skipSpace_blanks (b := []) nofun hc rest

/-- A spelling starts with a sign that is no blank and closes nothing. -/
theorem Spells.exists_cons {v : Value} {cs : List Char} (h : Spells v cs) :
    ∃ c rest, cs = c :: rest ∧ isSpace c = false ∧ c ≠ ']' := by
  cases h <;> exact ⟨_, _, rfl, by decide, by decide⟩

theorem SpellsItems.exists_cons {items : List Value} {cs : List Char} (h : SpellsItems items cs) :
    ∃ c rest, cs = c :: rest ∧ isSpace c = false ∧ c ≠ ']' := by
  cases h with
  | last h _ =>
    obtain ⟨c, rest, rfl, hc⟩ := h.exists_cons
    exact ⟨c, _, List.cons_append, hc⟩
  | more h _ _ =>
    obtain ⟨c, rest, rfl, hc⟩ := h.exists_cons
    exact ⟨c, _, List.cons_append, hc⟩

theorem SpellsMembers.exists_cons {members : List (String × Value)} {cs : List Char}
    (h : SpellsMembers members cs) : ∃ rest, cs = '"' :: rest := by
  cases h <;> exact ⟨_, rfl⟩

/-- With this fuel every spelled value is read, whatever follows it. -/
def ReadsValues (fuel : Nat) : Prop :=
  ∀ {v : Value} {cs : List Char} {depth : Nat} (rest : List Char), Spells v cs → v.Fits depth →
    2 * cs.length ≤ fuel → value? fuel depth (cs ++ rest) = some (v.node, rest)

def ReadsItems (fuel : Nat) : Prop :=
  ∀ {items : List Value} {cs : List Char} {depth : Nat} (rest : List Char),
    SpellsItems items cs → Value.FitAll depth items → 2 * cs.length ≤ fuel →
      items? fuel depth (cs ++ rest) = some (Value.nodes items, rest)

/-- The members are read with their names, all of which have a text. -/
def ReadsMembers (fuel : Nat) : Prop :=
  ∀ {members : List (String × Value)} {cs : List Char} {depth : Nat} (rest : List Char),
    SpellsMembers members cs → Value.MembersFit depth members → 2 * cs.length ≤ fuel →
      members? fuel depth (cs ++ rest) =
        some ((Value.memberNodes members).map fun m => (some m.1, m.2), rest)

theorem tableOf_named (members : List (String × Node)) :
    tableOf (members.map fun m => (some m.1, m.2)) = .named members := by
  have h : (members.map fun m : String × Node => (some m.1, m.2)).mapM
      (fun m : Option String × Node => m.1.map (·, m.2)) = some members := by
    induction members with
    | nil => rfl
    | cons m members ih =>
      rw [List.map_cons, List.mapM_cons, ih]
      rfl
  unfold tableOf
  simp only [h]

theorem nested_of_lt {depth : Nat} (h : depth < maxDepth) (n : Node) : nested depth n = n :=
  if_pos h

theorem readsValues_succ {fuel : Nat} (hitems : ReadsItems fuel) (hmembers : ReadsMembers fuel) :
    ReadsValues (fuel + 1) := by
  intro v cs depth rest h hfits hfuel
  cases h with
  | null => simp [value?, Value.node]
  | yes => simp [value?, Value.node]
  | no => simp [value?, Value.node]
  | string s =>
    simp only [List.cons_append, List.append_assoc, List.nil_append, value?, pieces?_written,
      textOf?_pieceOf, Value.node, Option.bind_eq_bind, Option.bind_some]
  | emptyArray =>
    simp only [List.cons_append, List.nil_append, value?, skipSpace_cons (c := ']') (by decide),
      nested_of_lt hfits.1, Value.node, Value.nodes]
  | @array items b ds hb h =>
    obtain ⟨c, ds', rfl, hc, hclose⟩ := h.exists_cons
    have hread := hitems rest h hfits.2 (by simp at hfuel ⊢; omega)
    simp only [List.cons_append, List.append_assoc, value?, skipSpace_blanks hb hc] at hread ⊢
    split
    · next heq => cases heq; exact absurd rfl hclose
    · rw [hread]
      simp only [Option.bind_eq_bind, Option.bind_some, nested_of_lt hfits.1, Value.node]
  | emptyObject =>
    simp only [List.cons_append, List.nil_append, value?, skipSpace_cons (c := '\x7d') (by decide),
      nested_of_lt hfits.1, Value.node, Value.memberNodes]
    rfl
  | @object members b ds hb h =>
    obtain ⟨ds', rfl⟩ := h.exists_cons
    have hread := hmembers rest h hfits.2 (by simp at hfuel ⊢; omega)
    simp only [List.cons_append, List.append_assoc, value?,
      skipSpace_blanks hb (c := '"') (by decide)] at hread ⊢
    split
    · next heq => simp at heq
    · rw [hread]
      simp only [Option.bind_eq_bind, Option.bind_some, tableOf_named, nested_of_lt hfits.1,
        Value.node]

theorem readsItems_succ {fuel : Nat} (hvalues : ReadsValues fuel) (hitems : ReadsItems fuel) :
    ReadsItems (fuel + 1) := by
  intro items cs depth rest h hfits hfuel
  cases h with
  | @last v cs b h hb =>
    have hread := hvalues (b ++ ']' :: rest) h hfits.1 (by simp at hfuel; omega)
    simp only [List.append_assoc, List.cons_append, List.nil_append, items?, hread,
      Option.bind_eq_bind, Option.bind_some, skipSpace_blanks hb (c := ']') (by decide),
      Value.nodes]
  | @more v items cs b ds h hb hrest =>
    obtain ⟨c, ds', rfl, hc, -⟩ := hrest.exists_cons
    have hread := hvalues (',' :: (b ++ (c :: ds' ++ rest))) h hfits.1 (by simp at hfuel; omega)
    have hmore := hitems rest hrest hfits.2 (by simp at hfuel ⊢; omega)
    simp only [List.append_assoc, List.cons_append, items?, Option.bind_eq_bind] at hread hmore ⊢
    rw [hread]
    simp only [Option.bind_some, skipSpace_cons (c := ',') (by decide), skipSpace_blanks hb hc,
      hmore, Value.nodes]

theorem readsMembers_succ {fuel : Nat} (hvalues : ReadsValues fuel)
    (hmembers : ReadsMembers fuel) : ReadsMembers (fuel + 1) := by
  intro members cs depth rest h hfits hfuel
  cases h with
  | @last name v b cs b' hb h hb' =>
    obtain ⟨c, cs', rfl, hc, -⟩ := h.exists_cons
    have hread := hvalues (b' ++ '\x7d' :: rest) h hfits.1 (by simp at hfuel ⊢; omega)
    simp only [List.append_assoc, List.cons_append, List.nil_append, members?, pieces?_written,
      Option.bind_eq_bind, Option.bind_some, skipSpace_cons (c := ':') (by decide),
      skipSpace_blanks hb hc] at hread ⊢
    rw [hread]
    simp only [Option.bind_some, skipSpace_blanks hb' (c := '\x7d') (by decide), textOf?_pieceOf,
      Value.memberNodes, List.map_cons, List.map_nil]
  | @more name v members b cs b' ds hb h hb' hrest =>
    obtain ⟨c, cs', rfl, hc, -⟩ := h.exists_cons
    obtain ⟨ds', rfl⟩ := hrest.exists_cons
    have hread := hvalues (',' :: (b' ++ ('"' :: ds' ++ rest))) h hfits.1
      (by simp at hfuel ⊢; omega)
    have hmore := hmembers rest hrest hfits.2 (by simp at hfuel ⊢; omega)
    simp only [List.append_assoc, List.cons_append, members?, pieces?_written,
      Option.bind_eq_bind, Option.bind_some, skipSpace_cons (c := ':') (by decide),
      skipSpace_blanks hb hc] at hread hmore ⊢
    rw [hread]
    simp only [Option.bind_some, skipSpace_cons (c := ',') (by decide),
      skipSpace_blanks hb' (c := '"') (by decide), hmore, textOf?_pieceOf, Value.memberNodes,
      List.map_cons]

/-- Fuel for every character twice reads all that is spelled. -/
theorem reads (fuel : Nat) : ReadsValues fuel ∧ ReadsItems fuel ∧ ReadsMembers fuel := by
  induction fuel with
  | zero =>
    refine ⟨fun _ h _ hfuel => ?_, fun _ h _ hfuel => ?_, fun _ h _ hfuel => ?_⟩
    · obtain ⟨c, rest, rfl, -⟩ := h.exists_cons
      simp at hfuel
    · obtain ⟨c, rest, rfl, -⟩ := h.exists_cons
      simp at hfuel
    · obtain ⟨rest, rfl⟩ := h.exists_cons
      simp at hfuel
  | succ fuel ih =>
    obtain ⟨hvalues, hitems, hmembers⟩ := ih
    exact ⟨readsValues_succ hitems hmembers, readsItems_succ hvalues hitems,
      readsMembers_succ hvalues hmembers⟩

/-- A spelling is read as what it spells. -/
theorem read?_of_spells {text : String} {v : Value} (h : Spells v text.toList) (hfits : v.Fits 0) :
    read? text = some v.node := by
  have hread := (reads (2 * text.toList.length + 2)).1 [] h hfits (by omega)
  obtain ⟨c, rest, hcs, hc, -⟩ := h.exists_cons
  unfold read?
  rw [hcs] at hread ⊢
  rw [List.append_nil] at hread
  simp only [skipSpace_cons hc, hread, Option.bind_eq_bind, Option.bind_some]
  rfl

end DataVault.Json
