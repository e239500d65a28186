/-
DataVault.Proofs.Files.Names — the entries of a tree have names.

A path is cut at its slashes, dots are not walked along, and two dots lead up.
So a walk goes from directories that are always there through plain names
(`Location.Named.follow`), and so does the location of whatever is made at the
end of a path. That holds of the empty tree and is kept by every change to a tree
(`Tree.Named`), in particular of a tree that is made of files
(`Tree.named_ofFiles`).
-/
import DataVault.Proofs.Files.Trees

namespace DataVault.Files

/-! ## 1. Locations -/

namespace Location

/-- Plain names below a directory that is always there. -/
inductive Named : Location → Prop
  | anchor {l : Location} (h : l.isAnchor = true) : Named l
  | under {d : Location} {name : String} (h : Named d) (hname : Path.Plain name) :
      Named (d ++ [name])

variable {l : Location}

theorem Named.parent (h : Named l) : Named l.parent := by
  unfold Location.parent
  split
  · exact h
  · next hroot =>
    split
    · next hanchor =>
      refine .anchor (Bool.or_eq_true_iff.mpr (.inr ?_))
      have hdots := (Bool.or_eq_true_iff.mp hanchor).resolve_left (by simpa using hroot)
      rw [List.all_append, hdots]
      rfl
    · next hanchor =>
      cases h with
      | anchor hl => exact absurd hl hanchor
      | under hd hname => rwa [List.dropLast_concat]

/-- A piece of a path that leads neither on nor up is a plain name. -/
theorem plain_of_piece {piece : String} (hslash : '/' ∉ piece.toList)
    (hskip : ¬ (piece.isEmpty = true ∨ piece = ".")) (hparent : piece ≠ "..") :
    Path.Plain piece := by
  refine ⟨?_, hslash⟩
  unfold Path.component?
  rw [if_neg hskip, if_neg hparent]

theorem Named.follow {pieces : List String} (hslash : ∀ piece ∈ pieces, '/' ∉ piece.toList)
    (h : Named l) : Named (l.follow pieces) := by
  induction pieces generalizing l with
  | nil => exact h
  | cons piece rest ih =>
    obtain ⟨hpiece, hrest⟩ := List.forall_mem_cons.mp hslash
    unfold Location.follow
    split
    · exact ih hrest h
    · next hskip =>
      split
      · exact ih hrest h.parent
      · next hparent => exact ih hrest (h.under (plain_of_piece hpiece hskip hparent))

/-- The name of a location is plain, unless the location is always there. -/
theorem Named.plain_of_getLast? {name : String} (h : Named l) (hname : l.getLast? = some name) :
    Path.Plain name ∨ name = ".." ∨ name = "/" := by
  cases h with
  | anchor hl =>
    rcases Bool.or_eq_true_iff.mp hl with hroot | hdots
    · rw [beq_iff_eq.mp hroot] at hname
      cases hname
      exact .inr (.inr rfl)
    · have hdot := List.all_eq_true.mp hdots name (List.mem_of_getLast? hname)
      exact .inr (.inl (beq_iff_eq.mp hdot))
  | under _ hplain =>
    rw [List.getLast?_concat] at hname
    cases hname
    exact .inl hplain

end Location

/-! ## 2. Trees -/

namespace Tree

variable {t t' : Tree} {l : Location} {path : String}

theorem named_of_way {pieces : List String} (hslash : ∀ piece ∈ pieces, '/' ∉ piece.toList)
    (h : t.way path pieces = .toPlace l) : l.Named := by
  have hwalk := (way_eq_toPlace_iff.mp h).2.2.2
  rw [← follow_of_walk hwalk]
  refine Location.Named.follow hslash (.anchor ?_)
  unfold origin
  split <;> rfl

theorem named_of_locate? (h : t.locate? path = some l) : l.Named :=
  named_of_way (fun _ => Path.notMem_of_mem_pieces) (locate?_eq_some_iff.mp h)

/-- All entries have names. -/
def Named (t : Tree) : Prop := ∀ entry ∈ t.entries, entry.1.Named

theorem named_empty : empty.Named := List.forall_mem_nil _

theorem Named.set {e : Entry} (h : t.Named) (hl : l.Named) : (t.set l e).Named := by
  unfold Tree.set
  split
  · refine List.forall_mem_map.mpr fun entry hentry => ?_
    split
    · exact hl
    · exact h entry hentry
  · exact List.forall_mem_append.mpr ⟨h, List.forall_mem_singleton.mpr hl⟩

theorem Named.erase (h : t.Named) (l : Location) : (t.erase l).Named :=
  fun entry hentry => h entry (List.mem_of_mem_filter hentry)

theorem Named.plain_of_mem_children (h : t.Named) {name : String} {e : Entry}
    (hchild : (name, e) ∈ t.children l) : Path.Plain name ∨ name = ".." ∨ name = "/" := by
  unfold children at hchild
  obtain ⟨⟨place, entry⟩, hentry, hpair⟩ := List.mem_filterMap.mp hchild
  simp only at hpair
  split at hpair
  · obtain ⟨last, hlast, hsame⟩ := Option.map_eq_some_iff.mp hpair
    cases hsame
    exact (h _ hentry).plain_of_getLast? hlast
  · cases hpair

theorem Named.write? {content : String} (h : t.Named) (hwrite : t.write? path content = some t') :
    t'.Named := by
  obtain ⟨l, readOnly, hl, -, -, rfl⟩ := exists_of_write? hwrite
  exact h.set (named_of_locate? hl)

theorem Named.remove? (h : t.Named) (hremove : t.remove? path = some t') : t'.Named := by
  obtain ⟨l, -, hremove⟩ := Option.bind_eq_some_iff.mp hremove
  split at hremove
  · cases hremove
    exact h.erase l
  · cases hremove

theorem Named.protect? (h : t.Named) (hprotect : t.protect? path = some t') : t'.Named := by
  obtain ⟨l, hl, hprotect⟩ := Option.bind_eq_some_iff.mp hprotect
  obtain ⟨e, -, hset⟩ := Option.bind_eq_some_iff.mp hprotect
  cases hset
  exact h.set (named_of_locate? hl)

theorem notMem_of_mem_piecesToMake {piece : String} (h : piece ∈ piecesToMake path) :
    '/' ∉ piece.toList := by
  suffices hpieces : piece ∈ Path.pieces path from Path.notMem_of_mem_pieces hpieces
  unfold piecesToMake at h
  split at h
  · exact h
  · exact List.mem_reverse.mp ((List.dropWhile_sublist _).subset (List.mem_reverse.mp h))

theorem Named.makeOne (h : t.Named) (hmade : t.makeOne path = .made t') : t'.Named := by
  unfold Tree.makeOne at hmade
  split at hmade
  · cases hmade
  · cases hmade
  · next l hl =>
    split at hmade
    · cases hmade
    · cases hmade
      exact h.set (named_of_way (fun _ => notMem_of_mem_piecesToMake) hl)

theorem Named.makeFrom (components : List Component) :
    ∀ {t : Tree} (_ : t.Named) (path : String), (t.makeFrom path components).2.Named := by
  induction components with
  | nil => exact fun h _ => h
  | cons component above ih =>
    intro t h path
    unfold Tree.makeFrom
    split
    · next hmade => exact h.makeOne hmade
    · exact h
    · have habove := ih h (Path.ofComponents above.reverse)
      split
      · next heq => rwa [heq] at habove
      · next heq =>
        rw [heq] at habove
        split
        · next hmade => exact habove.makeOne hmade
        · exact habove
        · exact habove

theorem Named.makeDirectory (h : t.Named) (path : String) : (t.makeDirectory path).2.Named :=
  Named.makeFrom _ h path

theorem Named.create (h : t.Named) (path content : String) : (t.create path content).Named := by
  have hmade := h.makeDirectory (Path.above path)
  unfold Tree.create
  simp only
  cases hwrite : (t.makeDirectory (Path.above path)).2.write? path content with
  | none => exact hmade
  | some t' => exact hmade.write? hwrite

/-- A tree that is made of files. -/
theorem named_ofFiles (files : List (String × String)) : (ofFiles files).Named := by
  have hfold : ∀ t : Tree, t.Named →
      (files.foldl (fun t file => t.create file.1 file.2) t).Named := by
    induction files with
    | nil => exact fun _ h => h
    | cons file files ih => exact fun t h => ih _ (h.create file.1 file.2)
  exact hfold empty named_empty

end Tree

end DataVault.Files
