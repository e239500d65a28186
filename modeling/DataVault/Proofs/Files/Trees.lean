/-
DataVault.Proofs.Files.Trees — what writing does to a tree.

Writing a file and making directories only add to a tree: what was there is
still there, and still a file or still a directory (`Keeps`). So every path
that led to a file leads to the same file, and a file that was written is
read back. Removing a file takes away nothing else (`Loses`). A path leads
through directories only, so it leads to the same place for as long as these
are there. Which place that is does not depend on the tree (`place`).

A path below a directory leads to a place below the one where the path of
the directory leads (`locate?_join`), however that path is written. The empty
path is the exception. It leads nowhere, but a name below it is a name in the
working directory.
-/
import DataVault.Files.Tree
import DataVault.Proofs.Files.Paths
import Mathlib.Data.List.Basic

namespace DataVault.Files

open DataVault.Text

/-- Where pieces lead from a location if there is a directory at every step. -/
def Location.follow (l : Location) : List String → Location
  | [] => l
  | piece :: rest =>
      if piece.isEmpty ∨ piece = "." then l.follow rest
      else if piece = ".." then l.parent.follow rest
      else Location.follow (l ++ [piece]) rest

namespace Tree

/-! ## 1. Entries -/

section
variable {t t' t'' : Tree} {l l' d : Location} {e : Entry}

theorem lookup_cons_ite (k : Location) (entries : List (Location × Entry)) :
    ((k, e) :: entries).lookup l = if l = k then some e else entries.lookup l := by
  rw [List.lookup_cons]
  split
  · next h => rw [if_pos (beq_iff_eq.mp h)]
  · next h => rw [if_neg (beq_eq_false_iff_ne.mp h)]

theorem lookup_map_set (entries : List (Location × Entry)) :
    (entries.map fun old => if old.1 = l then (l, e) else old).lookup l' =
      if l' = l then (entries.lookup l).map fun _ => e else entries.lookup l' := by
  induction entries with
  | nil => simp
  | cons old entries ih =>
    obtain ⟨k, f⟩ := old
    rw [List.map_cons, lookup_cons_ite, lookup_cons_ite]
    by_cases hk : k = l
    · subst hk
      rw [if_pos rfl, lookup_cons_ite, ih, if_pos rfl]
      by_cases hl : l' = k <;> simp [hl]
    · rw [if_neg hk, lookup_cons_ite, ih, if_neg (Ne.symm hk)]
      by_cases hl : l' = l
      · rw [if_pos hl, if_pos hl, if_neg (hl ▸ Ne.symm hk)]
      · rw [if_neg hl, if_neg hl]

theorem lookup_set : (t.set l e).entries.lookup l' =
    if l' = l then some e else t.entries.lookup l' := by
  unfold set
  split
  · next hin =>
    obtain ⟨f, hf⟩ := Option.isSome_iff_exists.mp hin
    rw [lookup_map_set, hf, Option.map_some]
  · next hout =>
    rw [List.lookup_append, lookup_cons_ite, List.lookup_nil]
    by_cases hl : l' = l
    · subst hl
      rw [Option.not_isSome_iff_eq_none.mp hout, Option.none_or]
    · rw [if_neg hl, if_neg hl, Option.or_none]

/-- What is set is there, and nothing else changes; the anchors stay. -/
theorem get?_set (h : l.isAnchor = false) :
    (t.set l e).get? l' = if l' = l then some e else t.get? l' := by
  unfold get?
  by_cases hl : l' = l
  · rw [if_pos hl, hl, h, if_neg Bool.false_ne_true, lookup_set, if_pos rfl]
  · rw [if_neg hl, lookup_set, if_neg hl]

theorem lookup_filter_ne (entries : List (Location × Entry)) :
    (entries.filter (·.1 != l)).lookup l' = if l' = l then none else entries.lookup l' := by
  induction entries with
  | nil => simp
  | cons old entries ih =>
    obtain ⟨k, f⟩ := old
    rw [List.filter_cons, lookup_cons_ite]
    by_cases hk : k = l
    · subst hk
      rw [if_neg (by simp), ih]
      by_cases hl : l' = k <;> simp [hl]
    · rw [if_pos (bne_iff_ne.mpr hk), lookup_cons_ite, ih]
      by_cases hl : l' = l
      · rw [if_pos hl, if_pos hl, if_neg (hl ▸ Ne.symm hk)]
      · rw [if_neg hl, if_neg hl]

/-- What is erased is gone, and nothing else changes. -/
theorem get?_erase (h : l.isAnchor = false) :
    (t.erase l).get? l' = if l' = l then none else t.get? l' := by
  unfold get? erase
  by_cases hl : l' = l
  · rw [if_pos hl, hl, h, if_neg Bool.false_ne_true, lookup_filter_ne, if_pos rfl]
  · rw [if_neg hl, lookup_filter_ne, if_neg hl]

theorem isAnchor_eq_false_of_file {content : String} {readOnly : Bool}
    (h : t.get? l = some (.file content readOnly)) : l.isAnchor = false := by
  unfold get? at h
  split at h
  · cases h
  · next hanchor => exact Bool.eq_false_iff.mpr hanchor

theorem isAnchor_eq_false_of_none (h : t.get? l = none) : l.isAnchor = false := by
  unfold get? at h
  split at h
  · cases h
  · next hanchor => exact Bool.eq_false_iff.mpr hanchor

/-- A file below a directory is one of its children. -/
theorem mem_children {name : String} {content : String} {readOnly : Bool}
    (h : t.get? (l ++ [name]) = some (.file content readOnly)) :
    (name, .file content readOnly) ∈ t.children l := by
  have hlookup : t.entries.lookup (l ++ [name]) = some (.file content readOnly) := by
    unfold get? at h
    rwa [isAnchor_eq_false_of_file h, if_neg Bool.false_ne_true] at h
  obtain ⟨before, after, hentries, -⟩ := List.lookup_eq_some_iff.mp hlookup
  unfold children
  refine List.mem_filterMap.mpr ⟨(l ++ [name], .file content readOnly), ?_, ?_⟩
  · rw [hentries]
    exact List.mem_append_right _ List.mem_cons_self
  · simp

/-! ## 2. Growth -/

/-- What was there is there, a directory as a directory and a file as a file. -/
def Keeps (t t' : Tree) : Prop :=
  ∀ l e, t.get? l = some e → ∃ e', t'.get? l = some e' ∧ e'.isDirectory = e.isDirectory

/-- What was there is there as it was. -/
def Adds (t t' : Tree) : Prop := ∀ l e, t.get? l = some e → t'.get? l = some e

/-- Nothing is different at a location but that there may be a directory now. -/
def FurnishesAt (t t' : Tree) (l : Location) : Prop :=
  t'.get? l = t.get? l ∨ t.get? l = none ∧ ∃ readOnly, t'.get? l = some (.directory readOnly)

/-- Nothing is different but that there are more directories. -/
def Furnishes (t t' : Tree) : Prop := ∀ l, t.FurnishesAt t' l

/-- What was a directory is one. -/
def KeepsDirectories (t t' : Tree) : Prop :=
  ∀ l readOnly, t.get? l = some (.directory readOnly) →
    ∃ readOnly', t'.get? l = some (.directory readOnly')

theorem Adds.keeps (h : t.Adds t') : t.Keeps t' := fun l e he => ⟨e, h l e he, rfl⟩

theorem FurnishesAt.refl (t : Tree) (l : Location) : t.FurnishesAt t l := .inl rfl

theorem FurnishesAt.get? (h : t.FurnishesAt t' l) (he : t.get? l = some e) :
    t'.get? l = some e := by
  rcases h with hsame | ⟨hnone, -⟩
  · rw [hsame, he]
  · cases hnone.symm.trans he

/-- A file was there before. -/
theorem FurnishesAt.file {content : String} {readOnly : Bool} (h : t.FurnishesAt t' l)
    (hfile : t'.get? l = some (.file content readOnly)) :
    t.get? l = some (.file content readOnly) := by
  rcases h with hsame | ⟨-, mode, hmade⟩
  · rw [← hsame, hfile]
  · cases hfile.symm.trans hmade

theorem FurnishesAt.trans (h : t.FurnishesAt t' l) (h' : t'.FurnishesAt t'' l) :
    t.FurnishesAt t'' l := by
  rcases h with hsame | ⟨hnone, readOnly, hmade⟩
  · unfold FurnishesAt at h' ⊢
    rwa [hsame] at h'
  · exact .inr ⟨hnone, readOnly, h'.get? hmade⟩

theorem Furnishes.refl (t : Tree) : t.Furnishes t := FurnishesAt.refl t

theorem Furnishes.adds (h : t.Furnishes t') : t.Adds t' := fun l _ => (h l).get?

theorem Furnishes.trans (h : t.Furnishes t') (h' : t'.Furnishes t'') : t.Furnishes t'' :=
  fun l => (h l).trans (h' l)

theorem Keeps.directories (h : t.Keeps t') : t.KeepsDirectories t' := by
  intro l readOnly hdirectory
  obtain ⟨e', he', hsort⟩ := h l _ hdirectory
  cases e' with
  | directory readOnly' => exact ⟨readOnly', he'⟩
  | file content readOnly' => cases hsort

theorem Keeps.refl (t : Tree) : t.Keeps t := fun _ e h => ⟨e, h, rfl⟩

theorem Keeps.trans (h : t.Keeps t') (h' : t'.Keeps t'') : t.Keeps t'' := by
  intro l e he
  obtain ⟨e', he', hsort⟩ := h l e he
  obtain ⟨e'', he'', hsort'⟩ := h' l e' he'
  exact ⟨e'', he'', hsort'.trans hsort⟩

theorem Keeps.set (hl : l.isAnchor = false)
    (h : ∀ old, t.get? l = some old → e.isDirectory = old.isDirectory) : t.Keeps (t.set l e) := by
  intro k old hold
  rw [get?_set hl]
  split
  · next hk =>
    subst hk
    exact ⟨e, rfl, h old hold⟩
  · exact ⟨old, hold, rfl⟩

theorem KeepsDirectories.trans (h : t.KeepsDirectories t') (h' : t'.KeepsDirectories t'') :
    t.KeepsDirectories t'' := by
  intro l readOnly hdirectory
  obtain ⟨readOnly', hdirectory'⟩ := h l readOnly hdirectory
  exact h' l readOnly' hdirectory'

theorem Furnishes.set {readOnly : Bool} (h : t.get? l = none) :
    t.Furnishes (t.set l (.directory readOnly)) := by
  intro k
  unfold FurnishesAt
  rw [get?_set (isAnchor_eq_false_of_none h)]
  split
  · next hk => exact .inr ⟨hk ▸ h, readOnly, rfl⟩
  · exact .inl rfl

/-- A way through directories stays open. -/
theorem KeepsDirectories.walk (h : t.KeepsDirectories t') {pieces : List String}
    (hway : t.walk l pieces = .toPlace d) : t'.walk l pieces = .toPlace d := by
  induction pieces generalizing l with
  | nil => exact hway
  | cons piece rest ih =>
    unfold Tree.walk at hway ⊢
    split at hway
    · cases hway
    · cases hway
    · next readOnly hdirectory =>
      obtain ⟨readOnly', hdirectory'⟩ := h l readOnly hdirectory
      rw [hdirectory']
      simp only
      split at hway
      · next hskip => rw [if_pos hskip]; exact ih hway
      · next hskip =>
        rw [if_neg hskip]
        split at hway
        · next hparent => rw [if_pos hparent]; exact ih hway
        · next hparent =>
          rw [if_neg hparent]
          split at hway
          · cases hway
          · next hsize => rw [if_neg hsize]; exact ih hway

theorem locate?_eq_some_iff {path : String} :
    t.locate? path = some l ↔ t.way path (Path.pieces path) = .toPlace l := by
  unfold locate?
  split <;> simp_all

/-- Where a walk along the pieces starts. -/
def origin (pieces : List String) : Location := if pieces.head? = some "" then ["/"] else []

/-- A way is a walk from the root or from the working directory. -/
theorem way_eq_toPlace_iff {path : String} {pieces : List String} :
    t.way path pieces = .toPlace l ↔ Path.isAdmissible path = true ∧ pieces ≠ [] ∧ pieces ≠ [""] ∧
      t.walk (origin pieces) pieces = .toPlace l := by
  have hroot : t.get? ["/"] = some (.directory false) := rfl
  unfold way
  split
  · next hadmissible => simp_all
  · next hadmissible =>
    have hadmissible : Path.isAdmissible path = true := by simpa using hadmissible
    split
    · simp
    · simp
    · next rest hno =>
      have hrest : ("" :: rest) ≠ [""] := fun h => hno (List.cons.inj h).2
      simp only [hadmissible, ne_eq, hrest, List.cons_ne_nil, not_false_eq_true, true_and]
      unfold origin
      rw [List.head?_cons, if_pos rfl, walk.eq_def _ _ ("" :: rest)]
      simp only [hroot]
      rw [if_pos (.inl rfl)]
    · next hnil hempty hslash =>
      have horigin : origin pieces = [] := by
        refine if_neg fun hhead => ?_
        obtain ⟨rest, hrest⟩ := List.head?_eq_some_iff.mp hhead
        exact hslash rest hrest
      rw [horigin]
      exact ⟨fun hwalk => ⟨hadmissible, hnil, hempty, hwalk⟩, fun h => h.2.2.2⟩

/-- The location that a path names. -/
def place (path : String) : Location := (origin (Path.pieces path)).follow (Path.pieces path)

theorem follow_of_walk {pieces : List String} (h : t.walk l pieces = .toPlace d) :
    l.follow pieces = d := by
  induction pieces generalizing l with
  | nil => exact Way.toPlace.inj h
  | cons piece rest ih =>
    unfold walk at h
    unfold Location.follow
    split at h
    · cases h
    · cases h
    · split at h
      · next hskip => rw [if_pos hskip]; exact ih h
      · next hskip =>
        rw [if_neg hskip]
        split at h
        · next hparent => rw [if_pos hparent]; exact ih h
        · next hparent =>
          rw [if_neg hparent]
          split at h
          · cases h
          · exact ih h

/-- A path that leads somewhere leads to the location that it names. -/
theorem place_eq {path : String} (hl : t.locate? path = some l) : place path = l := by
  rw [locate?_eq_some_iff, way_eq_toPlace_iff] at hl
  exact follow_of_walk hl.2.2.2

theorem KeepsDirectories.locate? (h : t.KeepsDirectories t') {path : String}
    (hl : t.locate? path = some l) : t'.locate? path = some l := by
  rw [locate?_eq_some_iff, way_eq_toPlace_iff] at hl ⊢
  obtain ⟨hadmissible, hnil, hempty, hwalk⟩ := hl
  exact ⟨hadmissible, hnil, hempty, h.walk hwalk⟩

theorem Keeps.locate? (h : t.Keeps t') {path : String} (hl : t.locate? path = some l) :
    t'.locate? path = some l :=
  h.directories.locate? hl

theorem at?_eq_some_iff {path : String} :
    t.at? path = some e ↔ ∃ l, t.locate? path = some l ∧ t.get? l = some e :=
  Option.bind_eq_some_iff

theorem read?_eq_some_iff {path content : String} :
    t.read? path = some content ↔
      ∃ l readOnly, t.locate? path = some l ∧ t.get? l = some (.file content readOnly) := by
  unfold read?
  constructor
  · intro h
    split at h
    · next readOnly hat =>
      cases h
      obtain ⟨l, hl, hentry⟩ := at?_eq_some_iff.mp hat
      exact ⟨l, readOnly, hl, hentry⟩
    · cases h
  · rintro ⟨l, readOnly, hl, hentry⟩
    simp only [at?_eq_some_iff.mpr ⟨l, hl, hentry⟩]

/-- The content of the file at a location. -/
def content? (t : Tree) (l : Location) : Option String :=
  match t.get? l with
  | some (.file content _) => some content
  | _ => none

theorem content?_congr (h : t'.get? l = t.get? l) : t'.content? l = t.content? l := by
  unfold content?
  rw [h]

/-- Directories have no content. -/
theorem FurnishesAt.content? (h : t.FurnishesAt t' l) : t'.content? l = t.content? l := by
  rcases h with hsame | ⟨hnone, readOnly, hmade⟩
  · exact content?_congr hsame
  · simp only [Tree.content?, hnone, hmade]

/-- What is read at a path is the content at the location where it leads. -/
theorem read?_eq_content? {path : String} (hl : t.locate? path = some l) :
    t.read? path = t.content? l := by
  unfold read? at? content?
  rw [hl]
  rfl

theorem read?_of_not_exists {path : String} (h : t.exists? path = false) :
    t.read? path = none := by
  unfold exists? at h
  unfold read?
  rw [Option.not_isSome_iff_eq_none.mp (Bool.eq_false_iff.mp h)]

theorem isFile_iff {path : String} :
    t.isFile path = true ↔ ∃ l, t.locate? path = some l ∧
      ∃ content readOnly, t.get? l = some (.file content readOnly) := by
  unfold isFile
  rw [Option.isSome_iff_exists]
  simp only [read?_eq_some_iff]
  constructor
  · rintro ⟨content, l, readOnly, hl, hentry⟩
    exact ⟨l, hl, content, readOnly, hentry⟩
  · rintro ⟨l, hl, content, readOnly, hentry⟩
    exact ⟨content, l, readOnly, hl, hentry⟩

theorem isFile_eq_false {path : String} (h : t.content? (place path) = none) :
    t.isFile path = false := by
  rw [Bool.eq_false_iff]
  intro hfile
  obtain ⟨l, hl, content, readOnly, hentry⟩ := isFile_iff.mp hfile
  rw [place_eq hl] at h
  simp only [content?, hentry] at h
  cases h

/-- A file stays a file. -/
theorem Keeps.isFile (h : t.Keeps t') {path : String} (hfile : t.isFile path = true) :
    t'.isFile path = true := by
  obtain ⟨l, hl, content, readOnly, hentry⟩ := isFile_iff.mp hfile
  obtain ⟨e', he', hsort⟩ := h l _ hentry
  refine isFile_iff.mpr ⟨l, h.locate? hl, ?_⟩
  cases e' with
  | directory r => cases hsort
  | file content' r => exact ⟨content', r, he'⟩

/-! ## 3. Names in a directory -/

/-- A walk goes on from where it came to. -/
theorem walk_append {pieces more : List String} :
    t.walk l (pieces ++ more) = .toPlace d ↔
      ∃ k, t.walk l pieces = .toPlace k ∧ t.walk k more = .toPlace d := by
  induction pieces generalizing l with
  | nil =>
    rw [List.nil_append, walk]
    exact ⟨fun h => ⟨l, rfl, h⟩, fun ⟨k, hk, h⟩ => Way.toPlace.inj hk ▸ h⟩
  | cons piece pieces ih =>
    rw [List.cons_append, walk.eq_def _ _ (piece :: (pieces ++ more)),
      walk.eq_def _ _ (piece :: pieces)]
    simp only
    split
    · simp
    · simp
    · split
      · exact ih
      · split
        · exact ih
        · split
          · simp
          · exact ih

theorem walk_plain {name : String} (h : Path.Plain name) (hwalk : t.walk l [name] = .toPlace d) :
    (∃ readOnly, t.get? l = some (.directory readOnly)) ∧ d = l ++ [name] := by
  unfold walk at hwalk
  split at hwalk
  · cases hwalk
  · cases hwalk
  · next readOnly hdirectory =>
    refine ⟨⟨readOnly, hdirectory⟩, ?_⟩
    rw [if_neg h.not_skipped, if_neg h.ne_parent] at hwalk
    split at hwalk
    · cases hwalk
    · exact (Way.toPlace.inj hwalk).symm

theorem walk_name {readOnly : Bool} {name : String} (h : Path.Plain name)
    (hdirectory : t.get? d = some (.directory readOnly)) (hsize : name.utf8ByteSize ≤ maxNameSize) :
    t.walk d [name] = .toPlace (d ++ [name]) := by
  unfold walk
  rw [hdirectory]
  simp only
  rw [if_neg h.not_skipped, if_neg h.ne_parent, if_neg (Nat.not_lt.mpr hsize)]
  rfl

theorem admissible_of_append {base rest : String}
    (h : Path.isAdmissible (base ++ rest) = true) : Path.isAdmissible base = true := by
  unfold Path.isAdmissible at h ⊢
  simp only [Bool.and_eq_true, Bool.not_eq_true', List.contains_eq_mem, decide_eq_false_iff_not,
    decide_eq_true_eq, String.toList_append, List.mem_append, not_or,
    String.utf8ByteSize_append] at h ⊢
  exact ⟨h.1.1, by omega⟩

theorem origin_append (above : String) (more : List String) :
    origin (Path.pieces above ++ more) = origin (Path.pieces above) := by
  unfold origin
  rw [List.head?_append_of_ne_nil _ (Path.pieces_ne_nil above)]

/-- A file in a directory is below the place where the path of the directory
leads. -/
theorem locate?_join {base name : String} (h : Path.Plain name) (hbase : base ≠ "")
    (hl : t.locate? (Path.join base name) = some l) :
    ∃ d, t.locate? base = some d ∧ l = d ++ [name] := by
  obtain ⟨above, hpieces, hwritten⟩ := Path.exists_pieces_join hbase
  obtain ⟨rest, hjoin⟩ := Path.exists_join_eq h hbase
  rw [locate?_eq_some_iff, hpieces name h, way_eq_toPlace_iff, hjoin, origin_append] at hl
  obtain ⟨hadmissible, -, -, hwalk⟩ := hl
  obtain ⟨d, hd, hname⟩ := walk_append.mp hwalk
  obtain ⟨⟨readOnly, hdirectory⟩, rfl⟩ := walk_plain h hname
  refine ⟨d, ?_, rfl⟩
  rw [locate?_eq_some_iff, way_eq_toPlace_iff]
  refine ⟨admissible_of_append hadmissible, Path.pieces_ne_nil base,
    fun hempty => hbase (Path.eq_of_pieces hempty), ?_⟩
  rcases hwritten with rfl | rfl
  · exact hd
  · have hslash : Path.pieces (above ++ "/") = Path.pieces above ++ [""] := by
      have hpieces := Path.pieces_append_slash above (by decide : '/' ∉ "".toList)
      rwa [String.append_empty] at hpieces
    have hstay : t.walk d [""] = .toPlace d := by
      simp only [walk, hdirectory]
      rw [if_pos (.inl rfl)]
    rw [hslash, origin_append]
    exact walk_append.mpr ⟨d, hd, hstay⟩

/-- A path that leads somewhere has a last name that a file system takes. -/
theorem size_le_of_locate?_join {base name : String} (h : Path.Plain name) (hbase : base ≠ "")
    (hl : t.locate? (Path.join base name) = some l) : name.utf8ByteSize ≤ maxNameSize := by
  obtain ⟨above, hpieces, -⟩ := Path.exists_pieces_join hbase
  rw [locate?_eq_some_iff, hpieces name h, way_eq_toPlace_iff] at hl
  obtain ⟨d, -, hname⟩ := walk_append.mp hl.2.2.2
  obtain ⟨⟨readOnly, hdirectory⟩, -⟩ := walk_plain h hname
  by_contra hsize
  unfold walk at hname
  rw [hdirectory] at hname
  simp only at hname
  rw [if_neg h.not_skipped, if_neg h.ne_parent, if_pos (Nat.not_le.mp hsize)] at hname
  cases hname

/-- Where there is a file in a directory, the paths of its other files lead
somewhere too, if the file system takes them. -/
theorem locate?_sibling {base name other : String} (h : Path.Plain name) (hbase : base ≠ "")
    (hl : t.locate? (Path.join base name) = some l) (hother : Path.Plain other)
    (hadmissible : Path.isAdmissible (Path.join base other) = true)
    (hsize : other.utf8ByteSize ≤ maxNameSize) :
    ∃ l', t.locate? (Path.join base other) = some l' := by
  obtain ⟨above, hpieces, -⟩ := Path.exists_pieces_join hbase
  rw [locate?_eq_some_iff, hpieces name h, way_eq_toPlace_iff, origin_append] at hl
  obtain ⟨d, hd, hname⟩ := walk_append.mp hl.2.2.2
  obtain ⟨⟨readOnly, hdirectory⟩, -⟩ := walk_plain h hname
  refine ⟨d ++ [other], ?_⟩
  rw [locate?_eq_some_iff, hpieces other hother, way_eq_toPlace_iff, origin_append]
  refine ⟨hadmissible, List.concat_ne_nil _ _, ?_, ?_⟩
  · intro hempty
    have hlast := congrArg List.getLast? hempty
    rw [List.getLast?_concat] at hlast
    exact hother.ne_empty (Option.some.inj hlast)
  · exact walk_append.mpr ⟨d, hd, walk_name hother hdirectory hsize⟩

/-- The last name of a path is that of the location that it names. -/
theorem getLast?_place_join {name : String} (h : Path.Plain name) (base : String) :
    (place (Path.join base name)).getLast? = some name := by
  have hfollow : ∀ (pieces : List String) (l : Location),
      l.follow (pieces ++ [name]) = l.follow pieces ++ [name] := by
    intro pieces
    induction pieces with
    | nil =>
      intro l
      simp only [List.nil_append, Location.follow]
      rw [if_neg h.not_skipped, if_neg h.ne_parent]
    | cons piece pieces ih =>
      intro l
      rw [List.cons_append, Location.follow, Location.follow.eq_2]
      split
      · exact ih _
      · split
        · exact ih _
        · exact ih _
  unfold place
  by_cases hbase : base = ""
  · rw [hbase, Path.join_empty, h.pieces, ← List.nil_append [name], hfollow]
    exact List.getLast?_concat
  · obtain ⟨above, hpieces, -⟩ := Path.exists_pieces_join hbase
    rw [hpieces name h, hfollow]
    exact List.getLast?_concat

theorem getLast?_of_locate?_join {base name : String} (h : Path.Plain name)
    (hl : t.locate? (Path.join base name) = some l) : l.getLast? = some name := by
  rw [← place_eq hl]
  exact getLast?_place_join h base

/-! ## 4. Writing -/

/-- A file is written where there is no directory. -/
theorem exists_of_write? {path content : String} (h : t.write? path content = some t') :
    ∃ l readOnly, t.locate? path = some l ∧ l.isAnchor = false ∧
      (∀ old, t.get? l = some old → old.isDirectory = false) ∧
        t' = t.set l (.file content readOnly) := by
  unfold write? at h
  obtain ⟨l, hl, h⟩ := Option.bind_eq_some_iff.mp h
  split at h
  · cases h
  · next old readOnly hentry =>
    cases h
    refine ⟨l, readOnly, hl, isAnchor_eq_false_of_file hentry, fun e he => ?_, rfl⟩
    cases hentry.symm.trans he
    rfl
  · next hnone =>
    cases h
    refine ⟨l, false, hl, isAnchor_eq_false_of_none hnone, fun e he => ?_, rfl⟩
    cases hnone.symm.trans he

theorem keeps_write? {path content : String} (h : t.write? path content = some t') :
    t.Keeps t' := by
  obtain ⟨l, readOnly, -, hanchor, hfile, rfl⟩ := exists_of_write? h
  exact .set hanchor fun old hold => (hfile old hold).symm

/-- What was written is read. -/
theorem read?_of_write? {path content : String} (h : t.write? path content = some t') :
    t'.read? path = some content := by
  have hkeeps := keeps_write? h
  obtain ⟨l, readOnly, hl, hanchor, -, rfl⟩ := exists_of_write? h
  refine read?_eq_some_iff.mpr ⟨l, readOnly, hkeeps.locate? hl, ?_⟩
  rw [get?_set hanchor, if_pos rfl]

/-- Entries elsewhere are as they were. -/
theorem get?_of_write? {path content : String} (h : t.write? path content = some t')
    (hother : t'.locate? path ≠ some l) : t'.get? l = t.get? l := by
  have hkeeps := keeps_write? h
  obtain ⟨k, readOnly, hk, hanchor, -, rfl⟩ := exists_of_write? h
  have hne : l ≠ k := by
    rintro rfl
    exact hother (hkeeps.locate? hk)
  rw [get?_set hanchor, if_neg hne]

theorem furnishes_makeOne {path : String} (h : t.makeOne path = .made t') : t.Furnishes t' := by
  unfold makeOne at h
  split at h
  · cases h
  · cases h
  · next l hl =>
    split at h
    · cases h
    · next hnone =>
      cases h
      exact .set (Option.not_isSome_iff_eq_none.mp hnone)

theorem furnishes_makeFrom (components : List Component) :
    ∀ (t : Tree) (path : String), t.Furnishes (t.makeFrom path components).2 := by
  induction components with
  | nil => exact fun t _ => .refl t
  | cons component above ih =>
    intro t path
    unfold makeFrom
    split
    · next hmade => exact furnishes_makeOne hmade
    · exact .refl t
    · have habove := ih t (Path.ofComponents above.reverse)
      split
      · next heq => rwa [heq] at habove
      · next heq =>
        rw [heq] at habove
        split
        · next hmade => exact habove.trans (furnishes_makeOne hmade)
        · exact habove
        · exact habove

/-- Making a directory leaves everything as it was. -/
theorem furnishes_makeDirectory (t : Tree) (path : String) :
    t.Furnishes (t.makeDirectory path).2 :=
  furnishes_makeFrom _ t path

/-! ## 5. Removing -/

/-- Nothing is gone but files to which some of these paths lead. -/
def Loses (t t' : Tree) (paths : List String) : Prop :=
  ∀ l e, t.get? l = some e →
    t'.get? l = some e ∨ e.isDirectory = false ∧ ∃ path ∈ paths, t'.locate? path = some l

theorem Loses.refl (t : Tree) : t.Loses t [] := fun _ _ he => .inl he

theorem Loses.directories {paths : List String} (h : t.Loses t' paths) :
    t.KeepsDirectories t' := by
  intro l readOnly hdirectory
  rcases h l _ hdirectory with hkept | ⟨hfile, -⟩
  · exact ⟨readOnly, hkept⟩
  · cases hfile

theorem Loses.trans {paths more : List String} (h : t.Loses t' paths) (h' : t'.Loses t'' more) :
    t.Loses t'' (paths ++ more) := by
  intro l e he
  rcases h l e he with hkept | ⟨hfile, path, hpath, hl⟩
  · rcases h' l e hkept with hkept' | ⟨hfile, path, hpath, hl⟩
    · exact .inl hkept'
    · exact .inr ⟨hfile, path, List.mem_append_right _ hpath, hl⟩
  · exact .inr ⟨hfile, path, List.mem_append_left _ hpath, h'.directories.locate? hl⟩

/-- A file is there after the loss, unless its own place is among those lost. -/
theorem Loses.isFile {path : String} {paths : List String} (h : t.Loses t' paths)
    (hfile : t.isFile path = true) :
    t'.isFile path = true ∨ ∃ lost ∈ paths, t'.locate? lost = t'.locate? path := by
  obtain ⟨l, hl, content, readOnly, hentry⟩ := isFile_iff.mp hfile
  have hl' := h.directories.locate? hl
  rcases h l _ hentry with hkept | ⟨-, lost, hlost, hplace⟩
  · exact .inl (isFile_iff.mpr ⟨l, hl', content, readOnly, hkept⟩)
  · exact .inr ⟨lost, hlost, hplace.trans hl'.symm⟩

theorem loses_remove? {path : String} (h : t.remove? path = some t') : t.Loses t' [path] := by
  unfold remove? at h
  obtain ⟨k, hk, h⟩ := Option.bind_eq_some_iff.mp h
  split at h
  · next content readOnly hfile =>
    cases h
    have hgone : ∀ l, (t.erase k).get? l = if l = k then none else t.get? l :=
      fun _ => get?_erase (isAnchor_eq_false_of_file hfile)
    have hdirectories : t.KeepsDirectories (t.erase k) := by
      intro l readOnly' hdirectory
      refine ⟨readOnly', ?_⟩
      rw [hgone, if_neg, hdirectory]
      rintro rfl
      cases hfile.symm.trans hdirectory
    intro l e he
    by_cases hl : l = k
    · subst hl
      cases hfile.symm.trans he
      exact .inr ⟨rfl, path, List.mem_singleton_self path, hdirectories.locate? hk⟩
    · rw [hgone, if_neg hl]
      exact .inl he
  · cases h

end

end Tree

end DataVault.Files
