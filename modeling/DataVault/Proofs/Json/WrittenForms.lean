/-
DataVault.Proofs.Json.WrittenForms — a value is read back from what was written.

Both written forms are spellings of the value. The compact one has no blanks,
and the other one has a new line and its indentation wherever blanks may
stand. So one text is written for one value at most, and a file that was
saved says what it was saved for.
-/
import DataVault.Proofs.Json.Reading
import Mathlib.Data.List.Forall2

namespace DataVault.Json

open DataVault.Document DataVault.Text

/-! ## 1. Items and members with commas between them -/

/-- The text spells a member. -/
def SpellsMember (m : String × Value) (text : String) : Prop :=
  ∃ b cs, Blanks b ∧ Spells m.2 cs ∧
    text.toList = '"' :: (m.1.toList.flatMap stringPiece ++ '"' :: ':' :: (b ++ cs))

theorem comma_append (cs : List Char) : ",".toList ++ cs = ',' :: cs := rfl

section
variable {between behind : String} (hbetween : Blanks between.toList)
  (hbehind : Blanks behind.toList)
include hbetween hbehind

/-- Spelled items with commas between them are spelled together. -/
theorem spellsItems_intercalate {v : Value} {items : List Value} {text : String}
    {texts : List String} (hv : Spells v text.toList)
    (h : List.Forall₂ (fun v text => Spells v text.toList) items texts) :
    SpellsItems (v :: items)
      ((String.intercalate ("," ++ between) (text :: texts)).toList ++
        (behind.toList ++ [']'])) := by
  induction h generalizing v text with
  | nil =>
    rw [String.intercalate_singleton]
    exact .last hv hbehind
  | cons hnext _ ih =>
    rw [String.intercalate_cons_cons, String.toList_append, String.toList_append,
      String.toList_append, List.append_assoc, List.append_assoc, List.append_assoc, comma_append]
    exact .more hv hbetween (ih hnext)

theorem spellsMembers_intercalate {m : String × Value} {members : List (String × Value)}
    {text : String} {texts : List String} (hm : SpellsMember m text)
    (h : List.Forall₂ SpellsMember members texts) :
    SpellsMembers (m :: members)
      ((String.intercalate ("," ++ between) (text :: texts)).toList ++
        (behind.toList ++ ['\x7d'])) := by
  induction h generalizing m text with
  | nil =>
    obtain ⟨b, cs, hb, hv, htext⟩ := hm
    rw [String.intercalate_singleton, htext]
    have h := SpellsMembers.last (n := m.1) hb hv hbehind
    simpa only [List.append_assoc, List.cons_append] using h
  | cons hnext _ ih =>
    obtain ⟨b, cs, hb, hv, htext⟩ := hm
    rw [String.intercalate_cons_cons, String.toList_append, String.toList_append,
      String.toList_append, htext, List.append_assoc, List.append_assoc, List.append_assoc,
      comma_append]
    have h := SpellsMembers.more (n := m.1) hb hv hbetween (ih hnext)
    simpa only [List.append_assoc, List.cons_append] using h

end

/-! ## 2. Spelled members -/

theorem blanks_empty : Blanks "".toList := nofun

/-- Blanks are told by a test of each character. -/
theorem blanks_iff {cs : List Char} : Blanks cs ↔ cs.all isSpace = true := List.all_eq_true.symm

theorem blanks_space : Blanks [' '] := blanks_iff.mpr rfl

theorem toList_stringText (s : String) :
    (stringText s).toList = '"' :: (s.toList.flatMap stringPiece ++ ['"']) := by
  unfold stringText
  rw [String.toList_ofList]
  rfl

/-- A name, a colon and a spelled value spell a member. -/
theorem spellsMember_of_spells (name colon : String) {b : List Char} {v : Value} {text : String}
    (hcolon : colon.toList = ':' :: b) (hb : Blanks b) (h : Spells v text.toList) :
    SpellsMember (name, v) (stringText name ++ colon ++ text) := by
  refine ⟨b, text.toList, hb, h, ?_⟩
  rw [String.toList_append, String.toList_append, toList_stringText, hcolon]
  simp only [List.cons_append, List.append_assoc, List.nil_append]

/-! ## 3. Without blanks -/

mutual

theorem spells_compact {depth : Nat} : ∀ {v : Value}, v.Fits depth → Spells v v.compact.toList
  | .null, _ => .null
  | .bool true, _ => .yes
  | .bool false, _ => .no
  | .string s, _ => by
      rw [Value.compact, toList_stringText]
      exact .string s
  | .array [], _ => .emptyArray
  | .array (_ :: _), h => by
      have hitems := spellsItems_intercalate blanks_empty blanks_empty (spells_compact h.2.1)
        (spellsAll_compact h.2.2)
      have harray := Spells.array (b := []) nofun hitems
      simpa [Value.compact, Value.compactItems] using harray
  | .object [], _ => .emptyObject
  | .object ((name, _) :: _), h => by
      have hmembers := spellsMembers_intercalate blanks_empty blanks_empty
        (spellsMember_of_spells name ":" rfl nofun (spells_compact h.2.1))
        (membersSpell_compact h.2.2)
      have hobject := Spells.object (b := []) nofun hmembers
      simpa [Value.compact, Value.compactMembers] using hobject

theorem spellsAll_compact {depth : Nat} : ∀ {items : List Value}, Value.FitAll depth items →
    List.Forall₂ (fun v text => Spells v text.toList) items (Value.compactItems items)
  | [], _ => .nil
  | _ :: _, h => .cons (spells_compact h.1) (spellsAll_compact h.2)

theorem membersSpell_compact {depth : Nat} : ∀ {members : List (String × Value)},
    Value.MembersFit depth members →
    List.Forall₂ SpellsMember members (Value.compactMembers members)
  | [], _ => .nil
  | (name, _) :: _, h =>
      .cons (spellsMember_of_spells name ":" rfl nofun (spells_compact h.1))
        (membersSpell_compact h.2)

end

/-! ## 4. Over several lines -/

theorem blanks_newLine (level : Nat) : Blanks (Value.newLine level).toList := by
  have h : ∀ n, Blanks (String.join (List.replicate n "  ")).toList := by
    intro n
    induction n with
    | zero => nofun
    | succ n ih =>
      rw [List.replicate_succ, String.join_cons, String.toList_append]
      exact List.forall_mem_append.mpr ⟨blanks_iff.mpr rfl, ih⟩
  unfold Value.newLine
  rw [String.toList_append]
  exact List.forall_mem_append.mpr ⟨blanks_iff.mpr rfl, h level⟩

theorem toList_bracketed_nil {left right : String} {l r : Char} (hl : left.toList = [l])
    (hr : right.toList = [r]) (level : Nat) :
    (Value.bracketed level left right []).toList = [l, r] := by
  unfold Value.bracketed
  rw [List.isEmpty_nil, if_pos rfl, String.toList_append, hl, hr]
  rfl

theorem toList_bracketed {left right : String} {l r : Char} (hl : left.toList = [l])
    (hr : right.toList = [r]) (level : Nat) (text : String) (texts : List String) :
    (Value.bracketed level left right (text :: texts)).toList =
      l :: ((Value.newLine (level + 1)).toList ++
        ((String.intercalate ("," ++ Value.newLine (level + 1)) (text :: texts)).toList ++
          ((Value.newLine level).toList ++ [r]))) := by
  unfold Value.bracketed
  rw [List.isEmpty_cons, if_neg Bool.false_ne_true]
  simp only [String.toList_append, List.append_assoc, hl, hr]
  rfl

mutual

theorem spells_prettyAt {depth : Nat} : ∀ {v : Value} (level : Nat), v.Fits depth →
    Spells v (v.prettyAt level).toList
  | .null, level, _ => by
      rw [Value.prettyAt]
      exact .null
  | .bool true, level, _ => by
      rw [Value.prettyAt]
      exact .yes
  | .bool false, level, _ => by
      rw [Value.prettyAt]
      exact .no
  | .string s, level, _ => by
      rw [Value.prettyAt, toList_stringText]
      exact .string s
  | .array [], level, _ => by
      rw [Value.prettyAt, Value.prettyItems, toList_bracketed_nil (l := '[') (r := ']') rfl rfl]
      exact .emptyArray
  | .array (_ :: _), level, h => by
      rw [Value.prettyAt, Value.prettyItems, toList_bracketed (l := '[') (r := ']') rfl rfl]
      exact .array (blanks_newLine _) <| spellsItems_intercalate (blanks_newLine _)
        (blanks_newLine _) (spells_prettyAt (level + 1) h.2.1) (spellsAll_pretty (level + 1) h.2.2)
  | .object [], level, _ => by
      rw [Value.prettyAt, Value.prettyMembers,
        toList_bracketed_nil (l := '\x7b') (r := '\x7d') rfl rfl]
      exact .emptyObject
  | .object ((name, _) :: _), level, h => by
      rw [Value.prettyAt, Value.prettyMembers,
        toList_bracketed (l := '\x7b') (r := '\x7d') rfl rfl]
      exact .object (blanks_newLine _) <| spellsMembers_intercalate (blanks_newLine _)
        (blanks_newLine _)
        (spellsMember_of_spells name ": " rfl blanks_space (spells_prettyAt (level + 1) h.2.1))
        (membersSpell_pretty (level + 1) h.2.2)

theorem spellsAll_pretty {depth : Nat} : ∀ {items : List Value} (level : Nat),
    Value.FitAll depth items →
    List.Forall₂ (fun v text => Spells v text.toList) items (Value.prettyItems level items)
  | [], level, _ => by
      rw [Value.prettyItems]
      exact .nil
  | _ :: _, level, h => by
      rw [Value.prettyItems]
      exact .cons (spells_prettyAt level h.1) (spellsAll_pretty level h.2)

theorem membersSpell_pretty {depth : Nat} : ∀ {members : List (String × Value)} (level : Nat),
    Value.MembersFit depth members →
    List.Forall₂ SpellsMember members (Value.prettyMembers level members)
  | [], level, _ => by
      rw [Value.prettyMembers]
      exact .nil
  | (name, _) :: _, level, h => by
      rw [Value.prettyMembers]
      exact .cons (spellsMember_of_spells name ": " rfl blanks_space (spells_prettyAt level h.1))
        (membersSpell_pretty level h.2)

end

/-! ## 5. Lists -/

theorem nodes_map {α : Type} (f : α → Value) (as : List α) :
    Value.nodes (as.map f) = as.map fun a => (f a).node := by
  induction as with
  | nil => rfl
  | cons a as ih => rw [List.map_cons, Value.nodes, ih, List.map_cons]

theorem fitAll_map {α : Type} {f : α → Value} {depth : Nat} (h : ∀ a, (f a).Fits depth)
    (as : List α) : Value.FitAll depth (as.map f) := by
  induction as with
  | nil => trivial
  | cons a as ih => exact ⟨h a, ih⟩

theorem fits_strings {depth : Nat} (h : depth < maxDepth) (texts : List String) :
    (Value.strings texts).Fits depth :=
  ⟨h, fitAll_map (f := .string) (fun _ => trivial) texts⟩

/-! ## 6. Reading what was written -/

/-- The compact form is read back. -/
theorem read?_compact {v : Value} (h : v.Fits 0) : read? v.compact = some v.node :=
  read?_of_spells (spells_compact h) h

/-- The form over several lines is read back. -/
theorem read?_pretty {v : Value} (h : v.Fits 0) : read? v.pretty = some v.node :=
  read?_of_spells (spells_prettyAt 0 h) h

/-! ## 7. One text for one value -/

theorem named_inj {as bs : List (String × Node)} (h : Node.named as = Node.named bs) : as = bs := by
  refine List.map_injective_iff.mpr (fun a b hab => ?_) (Node.table.inj h)
  obtain ⟨hname, hnode⟩ := Prod.mk.inj hab
  exact Prod.ext (Key.text.inj hname) hnode

mutual

theorem node_inj {depth depth' : Nat} : ∀ {v w : Value}, v.Fits depth → w.Fits depth' →
    v.node = w.node → v = w
  | .null, w, _, hw, h => by
      cases w <;>
        simp_all [Value.node, Scalar.null, Scalar.ofBool, Scalar.ofText, Node.named, Value.Fits]
  | .bool b, w, _, hw, h => by
      cases w <;>
        simp_all [Value.node, Scalar.null, Scalar.ofBool, Scalar.ofText, Node.named, Value.Fits]
  | .string s, w, _, hw, h => by
      cases w <;>
        simp_all [Value.node, Scalar.null, Scalar.ofBool, Scalar.ofText, Node.named, Value.Fits]
  | .array items, w, hv, hw, h => by
      cases w with
      | array items' => exact congrArg Value.array (nodes_inj hv.2 hw.2 (Node.list.inj h))
      | _ => simp [Value.node, Node.named] at h
  | .object members, w, hv, hw, h => by
      cases w with
      | object members' =>
        exact congrArg Value.object (memberNodes_inj hv.2 hw.2 (named_inj h))
      | _ => simp [Value.node, Node.named] at h

theorem nodes_inj {depth depth' : Nat} : ∀ {items items' : List Value},
    Value.FitAll depth items → Value.FitAll depth' items' →
    Value.nodes items = Value.nodes items' → items = items'
  | [], [], _, _, _ => rfl
  | _ :: _, _ :: _, h, h', heq => by
      obtain ⟨hnode, hrest⟩ := List.cons.inj heq
      rw [node_inj h.1 h'.1 hnode, nodes_inj h.2 h'.2 hrest]

theorem memberNodes_inj {depth depth' : Nat} : ∀ {members members' : List (String × Value)},
    Value.MembersFit depth members → Value.MembersFit depth' members' →
    Value.memberNodes members = Value.memberNodes members' → members = members'
  | [], [], _, _, _ => rfl
  | (_, _) :: _, (_, _) :: _, h, h', heq => by
      obtain ⟨hmember, hrest⟩ := List.cons.inj heq
      obtain ⟨rfl, hnode⟩ := Prod.mk.inj hmember
      rw [node_inj h.1 h'.1 hnode, memberNodes_inj h.2 h'.2 hrest]

end

/-- The compact form tells values apart. -/
theorem compact_inj {v w : Value} (hv : v.Fits 0) (hw : w.Fits 0) (h : v.compact = w.compact) :
    v = w := by
  have hread := read?_compact hv
  rw [h, read?_compact hw] at hread
  exact node_inj hv hw (Option.some.inj hread).symm

end DataVault.Json
