/-
DataVault.Proofs.Output.Effect — what one run does to the files.

A run puts its artifacts in place, removes outdated files if it is to prune them,
and saves its manifest, and it does nothing else. These three sorts of files do
not get into each other's way: an outdated file is none that the run wrote, and
the manifest has an extension of its own, so all of them have different names
in one directory, and files of different names stand at different places.

`effect_of_completed` says so for every run that goes through, whatever was in
the directory before. A file is outdated if it is in the output directory and has
the extension of the format, the manifest that the run finds lists it, and the run
does not write it. Where the output directory can be listed, as every directory of
a tree can, there is one exception: the empty path leads nowhere, so where it is the
output directory no file is found to be outdated, although the files of the run and
its manifest are in the working directory. An output directory that may be written
and not listed is not covered; no file in it is found to be outdated either.
-/
import DataVault.Proofs.Output.Tracking

namespace DataVault.Output

open DataVault.Artifact DataVault.Files

/-! ## 1. Removing -/

/-- Files of different names have different places. -/
theorem place_join_ne (directory : String) {name other : String} (hname : Path.Plain name)
    (hother : Path.Plain other) (hne : name ≠ other) :
    Tree.place (Path.join directory name) ≠ Tree.place (Path.join directory other) := by
  intro h
  have hlast := congrArg List.getLast? h
  rw [Tree.getLast?_place_join hname, Tree.getLast?_place_join hother] at hlast
  exact hne (Option.some.inj hlast)

/-- The files of these names are gone, and nothing else is different. -/
structure Removed (directory : String) (names : List String) (t t' : Tree) : Prop where
  directories : t.KeepsDirectories t'
  named : t.Named → t'.Named
  gone : ∀ name ∈ names, t'.get? (Tree.place (Path.join directory name)) = none
  others : ∀ l, (∀ name ∈ names, Tree.place (Path.join directory name) ≠ l) →
    t'.get? l = t.get? l

section
variable {directory name text : String} {names more : List String} {t t' t'' : Tree}

theorem removed_nil (directory : String) (t : Tree) : Removed directory [] t t :=
  ⟨(Tree.Keeps.refl t).directories, id, nofun, fun _ _ => rfl⟩

theorem Removed.trans (h : Removed directory names t t') (h' : Removed directory more t' t'')
    (hapart : ∀ name ∈ names, ∀ other ∈ more,
      Tree.place (Path.join directory other) ≠ Tree.place (Path.join directory name)) :
    Removed directory (names ++ more) t t'' := by
  constructor
  · exact h.directories.trans h'.directories
  · exact fun hnamed => h'.named (h.named hnamed)
  · refine List.forall_mem_append.mpr ⟨fun name hname => ?_, h'.gone⟩
    rw [h'.others _ (hapart name hname), h.gone name hname]
  · intro l hl
    obtain ⟨hnames, hmore⟩ := List.forall_mem_append.mp hl
    rw [h'.others l hmore, h.others l hnames]

/-- A file that is there can be removed. -/
theorem removed_of_isFile (hfile : t.isFile (Path.join directory name) = true) :
    ∃ t', t.remove? (Path.join directory name) = some t' ∧ Removed directory [name] t t' := by
  obtain ⟨l, hl, content, readOnly, hentry⟩ := Tree.isFile_iff.mp hfile
  have hplace := Tree.place_eq hl
  have hremove : t.remove? (Path.join directory name) = some (t.erase l) := by
    simp only [Tree.remove?, hl, Option.bind_eq_bind, Option.bind_some, hentry]
  have herase : ∀ k, (t.erase l).get? k = if k = l then none else t.get? k :=
    fun _ => Tree.get?_erase (Tree.isAnchor_eq_false_of_file hentry)
  refine ⟨t.erase l, hremove, (Tree.loses_remove? hremove).directories, ?_, ?_, fun k hk => ?_⟩
  · exact fun hnamed => hnamed.erase l
  · rw [List.forall_mem_singleton, hplace, herase, if_pos rfl]
  · rw [List.forall_mem_singleton, hplace] at hk
    rw [herase, if_neg (Ne.symm hk)]

theorem Removed.read_of_notMem (h : Removed directory names t t')
    (hplain : ∀ other ∈ names, Path.Plain other) (hname : Path.Plain name) (hnot : name ∉ names)
    (hread : t.read? (Path.join directory name) = some text) :
    t'.read? (Path.join directory name) = some text := by
  obtain ⟨l, readOnly, hl, hentry⟩ := Tree.read?_eq_some_iff.mp hread
  refine Tree.read?_eq_some_iff.mpr ⟨l, readOnly, h.directories.locate? hl, ?_⟩
  rw [h.others l fun other hother => ?_, hentry]
  rw [← Tree.place_eq hl]
  exact place_join_ne directory (hplain other hother) hname fun heq => hnot (heq ▸ hother)

/-- Files of different names are all removed: none of them is lost with another
one. -/
theorem removed_of_removeAll (hnodup : names.Nodup) (hplain : ∀ name ∈ names, Path.Plain name)
    (hfiles : ∀ name ∈ names, t.isFile (Path.join directory name) = true) :
    ∃ t', FileSettings.removeAll t (names.map (Path.join directory)) =
      (names.map (Path.join directory), t') ∧ Removed directory names t t' := by
  induction names generalizing t with
  | nil => exact ⟨t, rfl, removed_nil directory t⟩
  | cons name rest ih =>
    obtain ⟨hnew, hnodup⟩ := List.nodup_cons.mp hnodup
    obtain ⟨hname, hplain⟩ := List.forall_mem_cons.mp hplain
    obtain ⟨hfile, hfiles⟩ := List.forall_mem_cons.mp hfiles
    obtain ⟨t', hremove, hone⟩ := removed_of_isFile hfile
    have hne : ∀ other ∈ rest, other ≠ name := fun other hother heq => hnew (heq ▸ hother)
    have hstay : ∀ other ∈ rest, t'.isFile (Path.join directory other) = true := by
      intro other hother
      obtain ⟨text, hread⟩ := Option.isSome_iff_exists.mp (hfiles other hother)
      refine Option.isSome_iff_exists.mpr ⟨text, ?_⟩
      exact hone.read_of_notMem (List.forall_mem_singleton.mpr hname) (hplain other hother)
        (fun hmem => hne other hother (List.mem_singleton.mp hmem)) hread
    obtain ⟨t'', hall, hrest⟩ := ih hnodup hplain hstay
    refine ⟨t'', ?_, hone.trans hrest (List.forall_mem_singleton.mpr fun other hother => ?_)⟩
    · simp only [List.map_cons, FileSettings.removeAll, hremove, hall]
    · exact place_join_ne directory (hplain other hother) hname (hne other hother)

end

/-- What a run prunes, of the files that it may prune. -/
theorem removed_of_prune {s : FileSettings} {names pruned : List String} {t t' : Tree}
    (hnodup : names.Nodup) (hplain : ∀ name ∈ names, Path.Plain name)
    (hfiles : ∀ name ∈ names, t.isFile (Path.join s.directory name) = true)
    (h : (if s.prune = true then
      FileSettings.removeAll t (names.map (Path.join s.directory)) else ([], t)) = (pruned, t')) :
    pruned = (if s.prune then names else []).map (Path.join s.directory) ∧
      Removed s.directory (if s.prune then names else []) t t' := by
  cases hprune : s.prune with
  | true =>
    obtain ⟨tree, hall, hremoved⟩ := removed_of_removeAll hnodup hplain hfiles
    rw [hprune, if_pos rfl, hall] at h
    cases h
    exact ⟨rfl, hremoved⟩
  | false =>
    rw [hprune, if_neg Bool.false_ne_true] at h
    cases h
    exact ⟨rfl, removed_nil _ _⟩

/-! ## 2. The effect of a run -/

namespace FileRun

/-- A file of the output directory that the run finds in the manifest, and that
it does not write any more. -/
structure Outdated (r : FileRun) (name : String) : Prop where
  plain : Path.Plain name
  isFile : r.before.isFile (Path.join r.settings.directory name) = true
  extension : Path.nameExtension? name = some r.settings.format.extension
  listed : ∃ listed ∈ r.settings.manifestNames r.before, Path.same name listed = true
  unwritten : ∀ a ∈ r.artifacts, fileOf r.settings.format a ≠ name

/-- What the run did, where these are the names of the files that it found to be
outdated. -/
structure Effect (r : FileRun) (stale : List String) : Prop where
  sorted : stale.Pairwise (· < ·)
  mem_stale_iff : ∀ name, name ∈ stale ↔ r.settings.directory ≠ "" ∧ r.Outdated name
  written_eq : r.report.written = r.artifacts.map r.settings.pathOf
  stale_eq : r.report.stale = stale.map (Path.join r.settings.directory)
  pruned_eq : r.report.pruned = if r.settings.prune then r.report.stale else []
  /-- Each artifact is in its file. -/
  held : ∀ a ∈ r.artifacts,
    r.after.read? (r.settings.pathOf a) = some (a.written r.settings.format)
  removed : ∀ path ∈ r.report.pruned, r.after.isFile path = false
  /-- The manifest lists what was written and what is outdated and still there. -/
  manifest : ∃ names, (r.after.read? r.settings.manifestPath).bind manifestFiles? = some names ∧
    ∀ name, name ∈ names ↔ (∃ a ∈ r.artifacts, fileOf r.settings.format a = name) ∨
      r.settings.prune = false ∧ name ∈ stale
  /-- Everything else is as it was, but for directories on the way. -/
  others : ∀ l, (∀ path ∈ r.report.written ++ r.report.pruned ++ [r.settings.manifestPath],
    r.after.locate? path ≠ some l) → r.before.FurnishesAt r.after l
  named : r.after.Named

end FileRun

/-! ## 3. Outdated files -/

theorem exists_locate?_manifest {s : FileSettings} {t : Tree} {listed : String}
    (h : listed ∈ s.manifestNames t) : ∃ l, t.locate? s.manifestPath = some l := by
  unfold FileSettings.manifestNames at h
  cases hread : t.read? s.manifestPath with
  | none =>
    rw [hread] at h
    cases h
  | some text =>
    obtain ⟨l, -, hl, -⟩ := Tree.read?_eq_some_iff.mp hread
    exact ⟨l, hl⟩

namespace FileSettings

variable {s : FileSettings} {artifacts : List Artifact} {st st' : FileState} {name : String}

/-- A file that was not written was there before. The manifest was found, so the
way to the directory was open then. -/
theorem Persisted.isFile_before (h : Persisted s artifacts st st') (hname : Path.Plain name)
    (hdirectory : s.directory ≠ "") (hother : ∀ a ∈ artifacts, fileOf s.format a ≠ name)
    {l : Location} (hmanifest : st.tree.locate? s.manifestPath = some l)
    (hfile : st'.tree.isFile (Path.join s.directory name) = true) :
    st.tree.isFile (Path.join s.directory name) = true := by
  obtain ⟨k, hk, content, readOnly, hentry⟩ := Tree.isFile_iff.mp hfile
  have hadmissible := (Tree.way_eq_toPlace_iff.mp (Tree.locate?_eq_some_iff.mp hk)).1
  obtain ⟨k', hk'⟩ := Tree.locate?_sibling plain_manifestName hdirectory hmanifest hname
    hadmissible (Tree.size_le_of_locate?_join hname hdirectory hk)
  obtain rfl : k' = k := (Tree.place_eq hk').symm.trans (Tree.place_eq hk)
  have hsame : st.tree.FurnishesAt st'.tree k' := by
    refine h.others k' fun a ha hplace => ?_
    refine place_join_ne s.directory (plain_fileOf s.format a) hname (hother a ha) ?_
    exact (Tree.place_eq hplace).trans (Tree.place_eq hk).symm
  exact Tree.isFile_iff.mpr ⟨k', hk', content, readOnly, hsame.file hentry⟩

end FileSettings

namespace FileRun

variable {r : FileRun} {st : FileState} {name : String}

theorem mem_staleNames_iff_outdated (hnamed : r.before.Named)
    (h : FileSettings.Persisted r.settings r.artifacts
      ⟨r.before, r.settings.manifestNames r.before, []⟩ st) :
    name ∈ r.settings.staleNames st ↔ r.settings.directory ≠ "" ∧ r.Outdated name := by
  have hprevious : st.previous = r.settings.manifestNames r.before := h.previous_eq
  have hwritten : st.written = r.artifacts.map r.settings.pathOf := h.written_eq
  constructor
  · intro hname
    obtain ⟨hdirectory, hfile, hstale⟩ := FileSettings.of_mem_staleNames_isFile hname
    obtain ⟨hextension, ⟨listed, hlisted, hsame⟩, hunwritten⟩ := FileSettings.isStale_iff.mp hstale
    rw [hprevious] at hlisted
    rw [hwritten] at hunwritten
    have hplain := FileSettings.plain_of_mem_staleNames (h.named hnamed) hname
    have hother : ∀ a ∈ r.artifacts, fileOf r.settings.format a ≠ name := by
      intro a ha hfileOf
      refine hunwritten _ (List.mem_map_of_mem ha) ?_
      rw [fileName?_pathOf, hfileOf]
    obtain ⟨l, hl⟩ := exists_locate?_manifest hlisted
    exact ⟨hdirectory, hplain, h.isFile_before hplain hdirectory hother hl hfile, hextension,
      ⟨listed, hlisted, hsame⟩, hother⟩
  · rintro ⟨hdirectory, hplain, hfile, hextension, hlisted, hother⟩
    rw [FileSettings.mem_staleNames_iff_isStale hplain (h.keeps.isFile hfile),
      FileSettings.isStale_iff, hprevious, hwritten]
    refine ⟨hdirectory, hextension, hlisted, List.forall_mem_map.mpr fun a ha => ?_⟩
    rw [fileName?_pathOf]
    exact fun heq => hother a ha (Option.some.inj heq)

end FileRun

/-! ## 4. One run -/

namespace FileSettings

variable {s : FileSettings} {report : SinkReport}

theorem keptPaths_eq (h : report.pruned = if s.prune then report.stale else []) :
    keptPaths report = report.written ++ if s.prune then [] else report.stale := by
  unfold keptPaths
  rw [h]
  cases s.prune with
  | true =>
    have hnone : report.stale.filter (fun path => !report.stale.contains path) = [] :=
      List.filter_eq_nil_iff.mpr fun path hpath => by simp [hpath]
    rw [if_pos rfl, if_pos rfl, hnone]
  | false =>
    rw [if_neg Bool.false_ne_true, if_neg Bool.false_ne_true]
    exact congrArg _ (List.filter_eq_self.mpr fun _ _ => rfl)

/-- The names that the manifest is saved for. -/
theorem filterMap_keptPaths {artifacts : List Artifact} {stale : List String}
    (hplain : ∀ name ∈ stale, Path.Plain name)
    (hwritten : report.written = artifacts.map s.pathOf)
    (hstale : report.stale = stale.map (Path.join s.directory))
    (hpruned : report.pruned = if s.prune then report.stale else []) :
    (keptPaths report).filterMap Path.fileName? =
      artifacts.map (fileOf s.format) ++ if s.prune then [] else stale := by
  have hnames : (stale.map (Path.join s.directory)).filterMap Path.fileName? = stale := by
    rw [List.filterMap_map]
    refine (List.filterMap_congr fun name hname => ?_).trans (List.filterMap_some)
    exact Path.fileName?_join (hplain name hname) s.directory
  have hfiles : (artifacts.map s.pathOf).filterMap Path.fileName? =
      artifacts.map (fileOf s.format) := by
    rw [List.filterMap_map, ← List.filterMap_eq_map]
    exact List.filterMap_congr fun a _ => fileName?_pathOf s a
  rw [keptPaths_eq hpruned, List.filterMap_append, hwritten, hstale, hfiles]
  cases s.prune with
  | true => rfl
  | false => exact congrArg _ hnames

end FileSettings

/-! ## 5. The end of a run -/

section
variable {s : FileSettings} {lost : List String} {name text content : String}
  {placed saved : FileState} {tree : Tree} {l : Location}
  (hremoved : Removed s.directory lost placed.tree tree)
  (hwrote : FileSettings.Wrote s.manifestPath text { placed with tree } saved)
include hremoved hwrote

/-- What was put in place is there in the end. -/
theorem read_saved (hplain : ∀ other ∈ lost, Path.Plain other) (hname : Path.Plain name)
    (hkept : name ∉ lost) (hne : name ≠ manifestName)
    (hread : placed.tree.read? (Path.join s.directory name) = some content) :
    saved.tree.read? (Path.join s.directory name) = some content :=
  hwrote.read_of_ne plain_manifestName hname hne
    (hremoved.read_of_notMem hplain hname hkept hread)

/-- What was removed is not there in the end. -/
theorem isFile_saved (hname : Path.Plain name) (hlost : name ∈ lost) (hne : name ≠ manifestName) :
    saved.tree.isFile (Path.join s.directory name) = false := by
  refine Tree.isFile_eq_false ?_
  have hother : saved.tree.locate? s.manifestPath ≠
      some (Tree.place (Path.join s.directory name)) := by
    intro hl
    exact place_join_ne s.directory plain_manifestName hname hne.symm (Tree.place_eq hl)
  rw [(hwrote.others _ hother).content?]
  simp only [Tree.content?, hremoved.gone name hlost]

/-- All else is as it was when the artifacts were in place. -/
theorem furnishesAt_saved
    (hfiles : ∀ name ∈ lost, placed.tree.isFile (Path.join s.directory name) = true)
    (hlost : ∀ name ∈ lost, saved.tree.locate? (Path.join s.directory name) ≠ some l)
    (hmanifest : saved.tree.locate? s.manifestPath ≠ some l) :
    placed.tree.FurnishesAt saved.tree l := by
  refine .trans (.inl (hremoved.others l fun name hname hplace => ?_)) (hwrote.others l hmanifest)
  obtain ⟨k, hk, -⟩ := Tree.isFile_iff.mp (hfiles name hname)
  refine hlost name hname (hwrote.keeps.locate? (hremoved.directories.locate? ?_))
  rw [hk, ← hplace, Tree.place_eq hk]

end

namespace FileRun

/-- Of the outdated names, those whose files the run removes. -/
def lost (r : FileRun) (stale : List String) : List String := if r.settings.prune then stale else []

theorem mem_of_mem_lost {r : FileRun} {stale : List String} {name : String}
    (h : name ∈ r.lost stale) : name ∈ stale := by
  unfold lost at h
  split at h
  · exact h
  · cases h

/-- The states between the steps of a run: its artifacts are put in place, files
are removed, and the manifest is saved. -/
structure Course (r : FileRun) (stale : List String) (placed saved : FileState) (tree : Tree) :
    Prop where
  mem_stale_iff : ∀ name, name ∈ stale ↔ r.settings.directory ≠ "" ∧ r.Outdated name
  persisted : FileSettings.Persisted r.settings r.artifacts
    ⟨r.before, r.settings.manifestNames r.before, []⟩ placed
  held : ∀ a ∈ r.artifacts,
    placed.tree.read? (r.settings.pathOf a) = some (a.written r.settings.format)
  files : ∀ name ∈ stale, placed.tree.isFile (Path.join r.settings.directory name) = true
  removed : Removed r.settings.directory (r.lost stale) placed.tree tree
  wrote : FileSettings.Wrote r.settings.manifestPath
    (manifestText ((FileSettings.keptPaths r.report).filterMap Path.fileName?))
    { placed with tree } saved
  written_eq : r.report.written = r.artifacts.map r.settings.pathOf
  stale_eq : r.report.stale = stale.map (Path.join r.settings.directory)
  pruned_eq : r.report.pruned = (r.lost stale).map (Path.join r.settings.directory)
  after_eq : r.after = saved.tree

theorem Completed.exists_course {r : FileRun} (h : r.Completed) (hnamed : r.before.Named)
    (hdistinct : r.artifacts.Pairwise fun x y => x.targetName ≠ y.targetName) :
    ∃ stale placed saved tree, stale.Pairwise (· < ·) ∧ r.Course stale placed saved tree := by
  obtain ⟨placed, saved, hpersist, hfinish, htree⟩ := h.exists_steps
  have hpersisted := FileSettings.persisted_of_persistAll hpersist
  obtain ⟨-, hstale, tree, hprune, hwrote⟩ := FileSettings.exists_of_finish hfinish
  have hmem : ∀ name, name ∈ r.settings.staleNames placed ↔
      r.settings.directory ≠ "" ∧ r.Outdated name :=
    fun _ => mem_staleNames_iff_outdated hnamed hpersisted
  have hsorted := FileSettings.pairwise_staleNames r.settings placed
  have hfiles : ∀ name ∈ r.settings.staleNames placed,
      placed.tree.isFile (Path.join r.settings.directory name) = true :=
    fun name hname => (FileSettings.of_mem_staleNames_isFile hname).2.1
  rw [hstale] at hprune
  obtain ⟨hpruned, hremoved⟩ := removed_of_prune (hsorted.imp fun hlt => String.ne_of_lt hlt)
    (fun name hname => ((hmem name).mp hname).2.plain) hfiles hprune
  exact ⟨_, placed, saved, tree, hsorted, {
    mem_stale_iff := hmem
    persisted := hpersisted
    held := FileSettings.holds_of_persistAll hdistinct hpersist
    files := hfiles
    removed := hremoved
    wrote := hwrote
    written_eq := h.written_eq
    stale_eq := hstale
    pruned_eq := hpruned
    after_eq := htree.symm }⟩

namespace Course

variable {r : FileRun} {stale : List String} {placed saved : FileState} {tree : Tree}
  (h : r.Course stale placed saved tree)
include h

theorem outdated {name : String} (hname : name ∈ stale) : r.Outdated name :=
  ((h.mem_stale_iff name).mp hname).2

theorem report_pruned : r.report.pruned = if r.settings.prune then r.report.stale else [] := by
  rw [h.pruned_eq, h.stale_eq, lost]
  cases r.settings.prune <;> rfl

/-- An artifact is not outdated, so it is not removed. -/
theorem read_after : ∀ a ∈ r.artifacts,
    r.after.read? (r.settings.pathOf a) = some (a.written r.settings.format) := by
  intro a ha
  rw [h.after_eq]
  refine read_saved h.removed h.wrote
    (fun name hname => (h.outdated (mem_of_mem_lost hname)).plain) (plain_fileOf _ a)
    (fun hname => ?_) (fileOf_ne_manifestName _ a) (h.held a ha)
  exact (h.outdated (mem_of_mem_lost hname)).unwritten a ha rfl

theorem isFile_pruned : ∀ path ∈ r.report.pruned, r.after.isFile path = false := by
  rw [h.pruned_eq, h.after_eq]
  refine List.forall_mem_map.mpr fun name hname => ?_
  have houtdated := h.outdated (mem_of_mem_lost hname)
  exact isFile_saved h.removed h.wrote houtdated.plain hname (ne_manifestName houtdated.extension)

theorem manifest_after :
    ∃ names, (r.after.read? r.settings.manifestPath).bind manifestFiles? = some names ∧
      ∀ name, name ∈ names ↔ (∃ a ∈ r.artifacts, fileOf r.settings.format a = name) ∨
        r.settings.prune = false ∧ name ∈ stale := by
  refine ⟨sortedNames ((FileSettings.keptPaths r.report).filterMap Path.fileName?), ?_, ?_⟩
  · rw [h.after_eq, h.wrote.read, Option.bind_some, manifestFiles?_manifestText]
  · intro name
    rw [mem_sortedNames, FileSettings.filterMap_keptPaths (fun _ hname => (h.outdated hname).plain)
      h.written_eq h.stale_eq h.report_pruned, List.mem_append, List.mem_map]
    cases r.settings.prune <;> simp

theorem furnishesAt_after {l : Location}
    (hl : ∀ path ∈ r.report.written ++ r.report.pruned ++ [r.settings.manifestPath],
      r.after.locate? path ≠ some l) : r.before.FurnishesAt r.after l := by
  rw [h.written_eq, h.pruned_eq, h.after_eq] at hl
  rw [h.after_eq]
  obtain ⟨hothers, hmanifest⟩ := List.forall_mem_append.mp hl
  obtain ⟨hwritten, hpruned⟩ := List.forall_mem_append.mp hothers
  have hsaved : placed.tree.FurnishesAt saved.tree l :=
    furnishesAt_saved h.removed h.wrote (fun name hname => h.files name (mem_of_mem_lost hname))
      (fun name hname => hpruned _ (List.mem_map_of_mem hname))
      (hmanifest _ (List.mem_singleton_self _))
  refine (h.persisted.others l fun a ha hplace => ?_).trans hsaved
  refine hwritten _ (List.mem_map_of_mem ha) (h.wrote.keeps.locate? ?_)
  exact h.removed.directories.locate? hplace

end Course

end FileRun

/-- A run that goes through, over any files, on artifacts of different names, has
its effect and no other. -/
theorem effect_of_completed (r : FileRun) (hcompleted : r.Completed) (hnamed : r.before.Named)
    (hdistinct : r.artifacts.Pairwise fun x y => x.targetName ≠ y.targetName) :
    ∃ stale, r.Effect stale := by
  obtain ⟨stale, placed, saved, tree, hsorted, h⟩ := hcompleted.exists_course hnamed hdistinct
  exact ⟨stale, {
    sorted := hsorted
    mem_stale_iff := h.mem_stale_iff
    written_eq := h.written_eq
    stale_eq := h.stale_eq
    pruned_eq := h.report_pruned
    held := h.read_after
    removed := h.isFile_pruned
    manifest := h.manifest_after
    others := fun _ => h.furnishesAt_after
    named := h.after_eq ▸ h.wrote.named (h.removed.named (h.persisted.named hnamed)) }⟩

/-! ## 6. An outdated file -/

/-- A directory with a file of an earlier run, and one that somebody else wrote. -/
def usedDirectory (directory : String) : Tree :=
  .ofFiles [(Path.join directory manifestName, manifestText ["old.sqlx"]),
    (Path.join directory "old.sqlx", "SELECT 0"), (Path.join directory "own.sqlx", "SELECT 3")]

def tidyingSettings (directory : String) : FileSettings := ⟨directory, .sqlx, true⟩

/-- A run over it that writes one table. -/
def tidyingRun (directory : String) : FileRun :=
  .of (tidyingSettings directory) [customerTable] (usedDirectory directory)

section
variable {directory : String}

theorem completed_tidyingRun
    (h : ((tidyingSettings directory).run [customerTable] (usedDirectory directory)).1.isOk =
      true) :
    (tidyingRun directory).Completed :=
  FileRun.completed_of h

theorem named_tidyingRun : (tidyingRun directory).before.Named := Tree.named_ofFiles _

theorem distinct_tidyingRun :
    (tidyingRun directory).artifacts.Pairwise fun x y => x.targetName ≠ y.targetName :=
  List.pairwise_singleton _ _

end

/-- The file of the earlier run is removed, and the one of somebody else stays. -/
theorem effect_of_completed_tidying :
    (tidyingRun "definitions").report.pruned = ["definitions/old.sqlx"] ∧
      (tidyingRun "definitions").after.isFile "definitions/old.sqlx" = false ∧
      (tidyingRun "definitions").after.get? ["definitions", "own.sqlx"] =
        some (.file "SELECT 3" false) ∧
      ∃ stale, (tidyingRun "definitions").Effect stale := by
  have hrun : ((tidyingSettings "definitions").run [customerTable]
        (usedDirectory "definitions")).1.isOk = true ∧
      (tidyingRun "definitions").report.pruned = ["definitions/old.sqlx"] ∧
      (tidyingRun "definitions").before.get? ["definitions", "own.sqlx"] =
        some (.file "SELECT 3" false) ∧
      ∀ path ∈ (tidyingRun "definitions").report.written ++
          (tidyingRun "definitions").report.pruned ++
            [(tidyingSettings "definitions").manifestPath],
        (tidyingRun "definitions").after.locate? path ≠ some ["definitions", "own.sqlx"] := by
    decide +kernel
  obtain ⟨hcompleted, hpruned, hown, hother⟩ := hrun
  obtain ⟨stale, heffect⟩ := effect_of_completed (tidyingRun "definitions")
    (completed_tidyingRun hcompleted) named_tidyingRun distinct_tidyingRun
  refine ⟨hpruned, heffect.removed _ ?_, (heffect.others _ hother).get? hown, stale, heffect⟩
  rw [hpruned]
  exact List.mem_singleton_self _

/-- Where the output directory is the empty path, the file is outdated and not
reported. -/
theorem unreported_under_empty_path :
    (tidyingRun "").Completed ∧ (tidyingRun "").before.Named ∧
      (tidyingRun "").Outdated "old.sqlx" ∧ (tidyingRun "").report.stale = [] ∧
      (tidyingRun "").after.isFile "old.sqlx" = true := by
  have hrun : ((tidyingSettings "").run [customerTable] (usedDirectory "")).1.isOk = true ∧
      (usedDirectory "").isFile "old.sqlx" = true ∧
      "old.sqlx" ∈ (tidyingSettings "").manifestNames (usedDirectory "") ∧
      (tidyingRun "").report.stale = [] ∧
      (tidyingRun "").after.isFile "old.sqlx" = true := by decide +kernel
  obtain ⟨hcompleted, hfile, hlisted, hstale, hkept⟩ := hrun
  have houtdated : (tidyingRun "").Outdated "old.sqlx" :=
    ⟨⟨by decide, by decide⟩, hfile, by decide, ⟨"old.sqlx", hlisted, by decide⟩, by decide⟩
  exact ⟨completed_tidyingRun hcompleted, named_tidyingRun, houtdated, hstale, hkept⟩

end DataVault.Output
