/-
DataVault.Proofs.Text.Cutting — what trimming and cutting leave of a text.

Trimming drops blanks alone (`mem_trimChars`), and a trimmed text has none
left at its ends (`trim_trim`); one more blank at an end makes no difference
(`trimChars_cons`, `trimChars_concat`). Cutting at a character and joining
with it undo each other, as long as no piece holds the character
(`splitOn_intercalate`, `intercalate_splitOn`): `splitChars` is the library's
`List.splitOn`, which has these laws on lists. The words between blanks have no
blank in them (`forall_mem_wordsFrom`).
-/
import DataVault.Text.Blank
import Mathlib.Data.List.DropRight

namespace DataVault.Text

/-! ## 1. Trimming -/

/-- Dropping the members that pass a test keeps one that does not. -/
theorem mem_dropWhile {p : Char → Bool} {c : Char} {cs : List Char} (hc : c ∈ cs)
    (h : p c = false) : c ∈ cs.dropWhile p := by
  rw [← List.takeWhile_append_dropWhile (p := p) (l := cs)] at hc
  rcases List.mem_append.mp hc with htaken | hleft
  · rw [List.mem_takeWhile_imp htaken] at h
    cases h
  · exact hleft

theorem mem_trimChars {c : Char} {cs : List Char} (hc : c ∈ cs) (h : isBlank c = false) :
    c ∈ trimChars cs := by
  have hleft : c ∈ trimLeft cs := mem_dropWhile hc h
  exact List.mem_reverse.mpr (mem_dropWhile (List.mem_reverse.mpr hleft) h)

theorem trimChars_trimChars (cs : List Char) : trimChars (trimChars cs) = trimChars cs := by
  -- What is left starts as the text does behind its first blanks.
  have hstart : trimChars cs <+: trimLeft cs := List.rdropWhile_prefix isBlank (trimLeft cs)
  have hleft : trimLeft (trimChars cs) = trimChars cs := by
    refine List.dropWhile_eq_self_iff.mpr fun hlength => ?_
    rw [hstart.getElem hlength]
    exact List.dropWhile_get_zero_not isBlank cs _
  have hright : trimRight (trimChars cs) = trimChars cs :=
    List.rdropWhile_idempotent isBlank (trimLeft cs)
  rw [trimChars, hleft, hright]

theorem toList_trim (s : String) : (trim s).toList = trimChars s.toList :=
  String.toList_ofList

theorem trim_trim (s : String) : trim (trim s) = trim s := by
  rw [← String.toList_inj, toList_trim, toList_trim, trimChars_trimChars]

theorem trimChars_cons {c : Char} (hc : isBlank c = true) (cs : List Char) :
    trimChars (c :: cs) = trimChars cs := by
  unfold trimChars trimLeft
  rw [List.dropWhile_cons_of_pos hc]

theorem trimChars_concat {c : Char} (hc : isBlank c = true) (cs : List Char) :
    trimChars (cs ++ [c]) = trimChars cs := by
  unfold trimChars trimLeft trimRight
  rw [List.dropWhile_append]
  split
  · next hall => rw [List.isEmpty_iff.mp hall, List.dropWhile_cons_of_pos hc, List.dropWhile_nil]
  · rw [List.reverse_append, List.reverse_singleton, List.singleton_append,
      List.dropWhile_cons_of_pos hc]

theorem mem_of_mem_trimChars {c : Char} {cs : List Char} (h : c ∈ trimChars cs) : c ∈ cs := by
  have hright := (List.dropWhile_sublist isBlank).mem (List.mem_reverse.mp h)
  exact (List.dropWhile_sublist isBlank).mem (List.mem_reverse.mp hright)

/-- A text without blanks stays as it is. -/
theorem trim_eq_self {s : String} (h : ∀ c ∈ s.toList, isBlank c = false) : trim s = s := by
  have hkept : ∀ {cs : List Char}, (∀ c ∈ cs, isBlank c = false) → cs.dropWhile isBlank = cs := by
    intro cs hcs
    cases cs with
    | nil => rfl
    | cons c cs => rw [List.dropWhile_cons, hcs c List.mem_cons_self, if_neg Bool.false_ne_true]
  rw [← String.toList_inj, toList_trim, trimChars, trimLeft, trimRight, hkept h,
    hkept fun c hc => h c (List.mem_reverse.mp hc), List.reverse_reverse]

/-! ## 2. Cutting -/

section
variable {sep : Char}

theorem splitChars_append (a b : List Char) :
    splitChars sep (a ++ sep :: b) = splitChars sep a ++ splitChars sep b := by
  induction a with
  | nil => simp [splitChars]
  | cons c a ih =>
    obtain ⟨piece, pieces, hpieces⟩ := List.exists_cons_of_ne_nil (splitChars_ne_nil sep a)
    rw [hpieces] at ih
    by_cases hc : c = sep
    · simp [splitChars, hc, ih, hpieces]
    · simp [splitChars, hc, ih, hpieces]

/-- Pieces do not hold the separator. -/
theorem notMem_of_mem_splitChars {cs piece : List Char} (h : piece ∈ splitChars sep cs) :
    sep ∉ piece := by
  induction cs generalizing piece with
  | nil =>
    rw [List.mem_singleton.mp h]
    exact List.not_mem_nil
  | cons c cs ih =>
    obtain ⟨first, pieces, hpieces⟩ := List.exists_cons_of_ne_nil (splitChars_ne_nil sep cs)
    rw [hpieces] at ih
    by_cases hc : c = sep
    · rw [splitChars, if_pos hc, hpieces] at h
      rcases List.mem_cons.mp h with rfl | hrest
      · exact List.not_mem_nil
      · exact ih hrest
    · simp only [splitChars, if_neg hc, hpieces] at h
      rcases List.mem_cons.mp h with rfl | hrest
      · exact List.not_mem_cons_of_ne_of_not_mem (Ne.symm hc) (ih List.mem_cons_self)
      · exact ih (List.mem_cons_of_mem _ hrest)

theorem splitOn_ne_nil (sep : Char) (s : String) : splitOn sep s ≠ [] :=
  fun h => splitChars_ne_nil sep s.toList (List.map_eq_nil_iff.mp h)

theorem notMem_of_mem_splitOn {s piece : String} (h : piece ∈ splitOn sep s) :
    sep ∉ piece.toList := by
  obtain ⟨cs, hcs, rfl⟩ := List.mem_map.mp h
  rw [String.toList_ofList]
  exact notMem_of_mem_splitChars hcs

/-- A text is one piece, or what stands before its last separator and a piece. -/
theorem splitChars_cases (sep : Char) (cs : List Char) :
    splitChars sep cs = [cs] ∨ ∃ start last, cs = start ++ sep :: last ∧
      splitChars sep cs = splitChars sep start ++ [last] := by
  by_cases hsep : sep ∈ cs
  · obtain ⟨last, start, hcs, hlast⟩ :=
      List.eq_append_cons_of_mem (List.mem_reverse.mpr hsep)
    have hcs' : cs = start.reverse ++ sep :: last.reverse := by
      rw [← List.reverse_reverse cs, hcs]
      simp
    have hfree : sep ∉ last.reverse := fun h => hlast (List.mem_reverse.mp h)
    refine .inr ⟨start.reverse, last.reverse, hcs', ?_⟩
    rw [hcs', splitChars_append, splitChars_of_notMem hfree]
  · exact .inl (splitChars_of_notMem hsep)

end

/-- What the characters of texts have in common, those of the joined text have. -/
theorem forall_mem_intercalate {P : Char → Prop} {glue : String} (hglue : ∀ c ∈ glue.toList, P c)
    {texts : List String} (h : ∀ text ∈ texts, ∀ c ∈ text.toList, P c) :
    ∀ c ∈ (glue.intercalate texts).toList, P c := by
  induction texts with
  | nil => exact fun _ hc => absurd hc (by simp)
  | cons text texts ih =>
    obtain ⟨htext, hrest⟩ := List.forall_mem_cons.mp h
    cases texts with
    | nil => rwa [String.intercalate_singleton]
    | cons next texts =>
      rw [String.intercalate_cons_cons, String.toList_append, String.toList_append]
      exact List.forall_mem_append.mpr
        ⟨List.forall_mem_append.mpr ⟨htext, hglue⟩, ih hrest⟩

/-- Words have no blanks in them. -/
theorem forall_mem_wordsFrom {word cs : List Char} (hword : ∀ c ∈ word, isBlank c = false) :
    ∀ w ∈ wordsFrom word cs, ∀ c ∈ w, isBlank c = false := by
  induction cs generalizing word with
  | nil =>
    unfold wordsFrom
    split
    · nofun
    · exact List.forall_mem_singleton.mpr fun c hc => hword c (List.mem_reverse.mp hc)
  | cons c cs ih =>
    unfold wordsFrom
    cases hc : isBlank c with
    | true =>
      rw [if_pos rfl]
      split
      · exact ih nofun
      · exact List.forall_mem_cons.mpr
          ⟨fun c hc => hword c (List.mem_reverse.mp hc), ih nofun⟩
    | false =>
      rw [if_neg Bool.false_ne_true]
      exact ih (List.forall_mem_cons.mpr ⟨hc, hword⟩)

theorem splitChars_eq_splitOn (sep : Char) (cs : List Char) :
    splitChars sep cs = cs.splitOn sep := by
  induction cs with
  | nil => rfl
  | cons c cs ih =>
    obtain ⟨piece, pieces, hpieces⟩ := List.exists_cons_of_ne_nil (splitChars_ne_nil sep cs)
    unfold List.splitOn at ih ⊢
    rw [List.splitOnP_cons_eq_if_modifyHead, ← ih, splitChars, hpieces]
    by_cases hc : c = sep <;> simp [hc]

section
variable {sep : Char} {glue : String} (hglue : glue.toList = [sep])
include hglue

/-- Joined pieces are cut where they were joined. -/
theorem splitOn_intercalate {parts : List String} (hfree : ∀ part ∈ parts, sep ∉ part.toList)
    (hne : parts ≠ []) : splitOn sep (glue.intercalate parts) = parts := by
  have hpieces : ∀ piece ∈ parts.map String.toList, sep ∉ piece :=
    List.forall_mem_map.mpr hfree
  rw [splitOn, String.toList_intercalate, hglue, splitChars_eq_splitOn,
    List.splitOn_intercalate sep hpieces (by simpa using hne), List.map_map]
  exact List.map_id'' (fun _ => String.ofList_toList) parts

/-- The pieces of a text give it back. -/
theorem intercalate_splitOn (s : String) : glue.intercalate (splitOn sep s) = s := by
  have hlists : ((splitChars sep s.toList).map String.ofList).map String.toList =
      splitChars sep s.toList := by
    rw [List.map_map]
    exact List.map_id'' (fun _ => String.toList_ofList) _
  rw [← String.toList_inj, String.toList_intercalate, hglue, splitOn, hlists,
    splitChars_eq_splitOn, List.intercalate_splitOn]

end

end DataVault.Text
