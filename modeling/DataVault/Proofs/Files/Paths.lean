/-
DataVault.Proofs.Files.Paths — names at the end of a path.

A plain name is one component wherever it stands. Joined to a directory, in
whatever way that is written, it is the file name of the path, so names are
told apart by the paths (`join_inj`). A text that is not a plain name may
still be one component, with a slash or a dot behind it; none of these has an
extension (`eq_of_components`).
-/
import DataVault.Files.Path
import DataVault.Proofs.Text.Cutting

namespace DataVault.Files

open DataVault.Text

/-! ## 1. Names -/

namespace Path

/-- A name that is one component of a path wherever it stands. -/
structure Plain (name : String) : Prop where
  component : component? name = some (.normal name)
  slash : '/' ∉ name.toList

theorem component_eq_normal {piece name : String} (h : component? piece = some (.normal name)) :
    piece = name := by
  unfold component? at h
  split at h
  · cases h
  · split at h
    · cases h
    · exact Component.normal.inj (Option.some.inj h)

theorem component?_of_head {name : String} {c : Char} (hhead : name.toList.head? = some c)
    (hc : c ≠ '.') : component? name = some (.normal name) := by
  have hne : ∀ other : String, other.toList.head? ≠ some c → name ≠ other := by
    rintro other hother rfl
    exact hother hhead
  have hdot : some '.' ≠ some c := fun h => hc (Option.some.inj h).symm
  unfold component?
  rw [if_neg, if_neg (hne ".." hdot)]
  rw [String.isEmpty_iff]
  exact not_or.mpr ⟨hne "" nofun, hne "." hdot⟩

theorem notMem_of_mem_pieces {path piece : String} (h : piece ∈ pieces path) :
    '/' ∉ piece.toList := by
  obtain ⟨cs, hcs, rfl⟩ := List.mem_map.mp h
  rw [String.toList_ofList]
  exact notMem_of_mem_splitChars hcs

theorem pieces_ne_nil (path : String) : pieces path ≠ [] :=
  fun h => splitChars_ne_nil _ _ (List.map_eq_nil_iff.mp h)

theorem pieces_append_slash (above : String) {name : String} (h : '/' ∉ name.toList) :
    pieces (above ++ "/" ++ name) = pieces above ++ [name] := by
  have htext : (above ++ "/" ++ name).toList = above.toList ++ '/' :: name.toList := by
    rw [String.toList_append, String.toList_append, List.append_assoc]
    rfl
  unfold pieces splitOn
  rw [htext, splitChars_append, List.map_append, splitChars_of_notMem h, List.map_singleton,
    String.ofList_toList]

/-- A path of one piece is that piece. -/
theorem eq_of_pieces {path piece : String} (h : pieces path = [piece]) : path = piece := by
  unfold pieces splitOn at h
  rcases splitChars_cases '/' path.toList with hone | ⟨start, last, -, hpieces⟩
  · rw [hone, List.map_singleton, String.ofList_toList] at h
    exact List.singleton_inj.mp h
  · have hlength := congrArg List.length h
    have hpos := List.length_pos_iff.mpr (splitChars_ne_nil '/' start)
    rw [List.length_map, hpieces, List.length_append, List.length_singleton,
      List.length_singleton] at hlength
    omega

/-- A component that is a name is a plain piece. -/
theorem plain_of_mem_components {path name : String}
    (h : Component.normal name ∈ components path) : Plain name := by
  have hplain : ∀ ps : List String, (∀ p ∈ ps, p ∈ pieces path) →
      Component.normal name ∈ ps.filterMap component? → Plain name := by
    intro ps hps hmem
    obtain ⟨piece, hpiece, hcomponent⟩ := List.mem_filterMap.mp hmem
    have hname := component_eq_normal hcomponent
    subst hname
    exact ⟨hcomponent, notMem_of_mem_pieces (hps piece hpiece)⟩
  unfold components at h
  split at h
  · next second rest hpieces =>
    refine hplain (second :: rest) (fun p hp => ?_) ((List.mem_cons.mp h).resolve_left nofun)
    rw [hpieces]
    exact List.mem_cons_of_mem _ hp
  · next rest hpieces =>
    refine hplain rest (fun p hp => ?_) ((List.mem_cons.mp h).resolve_left nofun)
    rw [hpieces]
    exact List.mem_cons_of_mem _ hp
  · next hno hhere => exact hplain _ (fun p hp => hp) h

theorem plain_of_fileName? {path name : String} (h : fileName? path = some name) : Plain name := by
  unfold fileName? at h
  split at h
  · next last hlast =>
    cases h
    exact plain_of_mem_components (List.mem_of_getLast? hlast)
  · cases h

theorem Plain.ne_empty {name : String} (h : Plain name) : name ≠ "" := by
  rintro rfl
  exact absurd h.component (by decide)

theorem Plain.ne_here {name : String} (h : Plain name) : name ≠ "." := by
  rintro rfl
  exact absurd h.component (by decide)

theorem Plain.ne_parent {name : String} (h : Plain name) : name ≠ ".." := by
  rintro rfl
  exact absurd h.component (by decide)

/-- A walk along a path does not pass over a plain name. -/
theorem Plain.not_skipped {name : String} (h : Plain name) :
    ¬ (name.isEmpty = true ∨ name = ".") := by
  rw [String.isEmpty_iff]
  exact not_or.mpr ⟨h.ne_empty, h.ne_here⟩

theorem Plain.pieces {name : String} (h : Plain name) : pieces name = [name] := by
  unfold Path.pieces splitOn
  rw [splitChars_of_notMem h.slash, List.map_singleton, String.ofList_toList]

/-- The last piece of a path is its file name, if it is a plain name. -/
theorem fileName?_of_getLast? {path name : String} (h : Plain name)
    (hlast : (Path.pieces path).getLast? = some name) : fileName? path = some name := by
  have hread : ∀ ps : List String, ps.getLast? = some name →
      (ps.filterMap component?).getLast? = some (.normal name) := by
    intro ps hps
    obtain ⟨init, rfl⟩ := List.getLast?_eq_some_iff.mp hps
    rw [List.filterMap_append, List.filterMap_cons_some h.component]
    exact List.getLast?_concat
  have hcomponents : (components path).getLast? = some (.normal name) := by
    unfold components
    split
    · next second rest hpieces =>
      rw [hpieces, List.getLast?_cons_cons] at hlast
      rw [List.getLast?_cons, hread _ hlast, Option.getD_some]
    · next rest hpieces =>
      rw [hpieces, List.getLast?_cons] at hlast
      cases hrest : rest.getLast? with
      | none =>
        rw [hrest] at hlast
        exact absurd (Option.some.inj hlast).symm h.ne_here
      | some last =>
        rw [hrest] at hlast
        rw [List.getLast?_cons, hread rest (hrest.trans hlast), Option.getD_some]
    · exact hread _ hlast
  simp only [fileName?, hcomponents]

/-! ## 2. Files in a directory -/

section
variable {base name : String} (h : Plain name)
include h

theorem Plain.head?_ne : name.toList.head? ≠ some '/' :=
  fun hhead => h.slash (List.mem_of_head? hhead)

omit h in
theorem join_empty : join "" name = name := by
  unfold join
  rw [if_pos (.inr rfl)]

theorem join_eq (hbase : base ≠ "") : join base name =
    if base.toList.getLast? = some '/' then base ++ name else base ++ "/" ++ name := by
  unfold join
  rw [if_neg]
  rw [String.isEmpty_iff]
  exact not_or.mpr ⟨h.head?_ne, hbase⟩

/-- The name is written behind the directory. -/
theorem exists_join_eq (hbase : base ≠ "") : ∃ rest, join base name = base ++ rest := by
  rw [join_eq h hbase]
  split
  · exact ⟨name, rfl⟩
  · exact ⟨"/" ++ name, String.append_assoc⟩

omit h in
/-- The pieces of a name below a directory: those of the directory, but for a
slash at its end, and the name. -/
theorem exists_pieces_join (hbase : base ≠ "") : ∃ above : String,
    (∀ name, Plain name → Path.pieces (join base name) = Path.pieces above ++ [name]) ∧
      (base = above ∨ base = above ++ "/") := by
  by_cases hlast : base.toList.getLast? = some '/'
  · obtain ⟨start, hstart⟩ := List.getLast?_eq_some_iff.mp hlast
    have habove : base = String.ofList start ++ "/" := by
      rw [← String.toList_inj, String.toList_append, String.toList_ofList, hstart]
      rfl
    refine ⟨String.ofList start, fun name h => ?_, .inr habove⟩
    rw [join_eq h hbase, if_pos hlast, habove]
    exact pieces_append_slash _ h.slash
  · refine ⟨base, fun name h => ?_, .inl rfl⟩
    rw [join_eq h hbase, if_neg hlast]
    exact pieces_append_slash base h.slash

theorem fileName?_join (base : String) : fileName? (join base name) = some name := by
  refine fileName?_of_getLast? h ?_
  by_cases hbase : base = ""
  · rw [hbase, join_empty, h.pieces]
    rfl
  · obtain ⟨above, hpieces, -⟩ := exists_pieces_join hbase
    rw [hpieces name h]
    exact List.getLast?_concat

end

theorem join_inj {base a b : String} (ha : Plain a) (hb : Plain b)
    (h : join base a = join base b) : a = b := by
  have hname := fileName?_join ha base
  rw [h, fileName?_join hb base] at hname
  exact (Option.some.inj hname).symm

theorem components_plain {name : String} (h : Plain name) : components name = [.normal name] := by
  unfold components
  rw [h.pieces]
  split
  · next heq => cases heq
  · next heq => cases heq; exact absurd rfl h.ne_here
  · rw [List.filterMap_cons_some h.component]
    rfl

/-! ## 3. Extensions -/

/-- A name with an extension ends in a dot and the extension. -/
theorem exists_of_nameExtension? {name extension : String}
    (h : nameExtension? name = some extension) :
    '.' ∉ extension.toList ∧ ∃ start, name.toList = start ++ '.' :: extension.toList := by
  unfold nameExtension? splitOn at h
  rcases splitChars_cases '.' name.toList with hone | ⟨start, last, htext, hpieces⟩
  · rw [hone] at h
    cases h
  · have hmem : last ∈ splitChars '.' name.toList := by
      rw [hpieces]
      exact List.mem_append_right _ (List.mem_singleton_self last)
    obtain ⟨first, rest, hfirst⟩ := List.exists_cons_of_ne_nil
      (List.reverse_ne_nil_iff.mpr (splitChars_ne_nil '.' start))
    rw [hpieces, ← List.map_reverse, List.reverse_concat, hfirst] at h
    simp only [List.map_cons] at h
    split at h
    · cases h
    · cases h
      rw [String.toList_ofList]
      exact ⟨notMem_of_mem_splitChars hmem, start, htext⟩

theorem nameExtension?_append {name extension : String} (hne : name ≠ "")
    (hname : '.' ∉ name.toList) (hextension : '.' ∉ extension.toList) :
    nameExtension? (name ++ "." ++ extension) = some extension := by
  have htext : (name ++ "." ++ extension).toList = name.toList ++ '.' :: extension.toList := by
    rw [String.toList_append, String.toList_append, List.append_assoc]
    rfl
  unfold nameExtension? splitOn
  rw [htext, splitChars_append_cons _ hname, splitChars_of_notMem hextension]
  simp [hne]

theorem component?_eq_none_iff {piece : String} :
    component? piece = none ↔ piece = "" ∨ piece = "." := by
  unfold component?
  simp only [String.isEmpty_iff]
  constructor
  · intro h
    split at h
    · assumption
    · split at h <;> cases h
  · intro h
    rw [if_pos h]

/-- What stands behind the last slash holds the extension. -/
theorem exists_of_append_cons {start last front extension : List Char} (hslash : '/' ∉ extension)
    (h : start ++ '/' :: last = front ++ '.' :: extension) :
    ∃ rest, last = rest ++ '.' :: extension := by
  rcases List.append_eq_append_iff.mp h with ⟨rest, -, hlast⟩ | ⟨rest, -, hextension⟩
  · cases rest with
    | nil => cases hlast
    | cons c rest => exact ⟨rest, (List.cons.inj hlast).2⟩
  · have hmem : '/' ∈ '.' :: extension := by
      rw [hextension]
      exact List.mem_append_right _ List.mem_cons_self
    exact absurd ((List.mem_cons.mp hmem).resolve_left (by decide)) hslash

/-- A path of several pieces the last of which means something is more than a
name. -/
theorem components_ne_singleton {path first last : String} (rest : List String)
    (hpieces : pieces path = first :: (rest ++ [last])) (hlast : component? last ≠ none)
    (name : String) : components path ≠ [.normal name] := by
  obtain ⟨c, hc⟩ := Option.ne_none_iff_exists'.mp hlast
  obtain ⟨second, others, hothers⟩ :=
    List.exists_cons_of_ne_nil (List.append_ne_nil_of_right_ne_nil rest (List.cons_ne_nil last []))
  unfold components
  rw [hpieces, hothers]
  split
  · nofun
  · nofun
  · next hroot hhere =>
    have hfirst : component? first ≠ none := by
      rw [Ne, component?_eq_none_iff]
      rintro (rfl | rfl)
      · exact hroot second others rfl
      · exact hhere (second :: others) rfl
    obtain ⟨d, hd⟩ := Option.ne_none_iff_exists'.mp hfirst
    rw [← hothers, List.filterMap_cons_some hd, List.filterMap_append, List.filterMap_cons_some hc]
    intro hone
    have hlength := congrArg List.length hone
    simp at hlength

/-- A path that is one name, and has an extension, is written as that name. -/
theorem eq_of_components {path name extension : String} (hpath : components path = [.normal name])
    (hextension : nameExtension? path = some extension) (hne : extension ≠ "")
    (hslash : '/' ∉ extension.toList) : path = name := by
  rcases splitChars_cases '/' path.toList with hone | ⟨start, last, htext, hpieces⟩
  · have hpieces : pieces path = [path] := by
      unfold pieces splitOn
      rw [hone, List.map_singleton, String.ofList_toList]
    unfold components at hpath
    rw [hpieces] at hpath
    split at hpath
    · cases hpath
    · cases hpath
    · rw [List.filterMap_cons] at hpath
      split at hpath
      · cases hpath
      · next hcomponent =>
        cases hpath
        exact component_eq_normal hcomponent
  · -- The last piece ends in the extension, so it is a second component.
    exfalso
    have hsome : component? (String.ofList last) ≠ none := by
      obtain ⟨hdot, front, hfront⟩ := exists_of_nameExtension? hextension
      obtain ⟨rest, rfl⟩ := exists_of_append_cons hslash (htext.symm.trans hfront)
      rw [Ne, component?_eq_none_iff, ← String.toList_inj, ← String.toList_inj,
        String.toList_ofList]
      rintro (hempty | hdot')
      · simp at hempty
      · cases rest with
        | nil => exact hne (String.toList_inj.mp (List.cons.inj hdot').2)
        | cons c rest => simp at hdot'
    obtain ⟨first, rest, hfirst⟩ := List.exists_cons_of_ne_nil (splitChars_ne_nil '/' start)
    have hseveral : pieces path =
        String.ofList first :: (rest.map String.ofList ++ [String.ofList last]) := by
      unfold pieces splitOn
      rw [hpieces, hfirst, List.map_append, List.map_cons, List.cons_append, List.map_singleton]
    exact components_ne_singleton _ hseveral hsome name hpath

end Path

end DataVault.Files
