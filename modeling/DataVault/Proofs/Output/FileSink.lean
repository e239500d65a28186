/-
DataVault.Proofs.Output.FileSink — what the file sink leaves behind.

The sink only adds files until it finishes, so a file that was there before a
run is there when stale files are looked for. `mem_staleNames_iff` says which
ones are found: those that are listed in the manifest of the run before and
have the extension of this run's format. The names in a manifest are plain,
so a directory entry under another spelling of such a name is not taken for
it.
-/
import DataVault.Proofs.Files.Names
import DataVault.Proofs.Output.Manifest
import DataVault.Proofs.Output.Steps
import DataVault.Proofs.Sql.Names

namespace DataVault.Output

open DataVault.Artifact DataVault.Files DataVault.Sql DataVault.Text

/-! ## 1. Names of files -/

/-- The name of an artifact's file. -/
def fileOf (format : OutputFormat) (a : Artifact) : String :=
  a.targetName.text ++ "." ++ format.extension

theorem nameExtension?_fileOf (format : OutputFormat) (a : Artifact) :
    Path.nameExtension? (fileOf format a) = some format.extension := by
  refine Path.nameExtension?_append (ident_ne_empty _) (notMem_of_isPart_eq_false (by decide)) ?_
  cases format <;> decide

/-- The name begins with a letter or an underscore, so it is no dot. -/
theorem plain_fileOf (format : OutputFormat) (a : Artifact) : Path.Plain (fileOf format a) := by
  have htext : (fileOf format a).toList =
      a.targetName.text.toList ++ '.' :: format.extension.toList := by
    rw [fileOf, String.toList_append, String.toList_append, List.append_assoc]
    rfl
  have hne : a.targetName.text.toList ≠ [] :=
    fun h => ident_ne_empty a.targetName (String.toList_inj.mp h)
  obtain ⟨c, cs, hc⟩ := List.exists_cons_of_ne_nil hne
  have hpart : Ident.isPart c = true := isPart_of_mem (hc ▸ List.mem_cons_self)
  constructor
  · refine Path.component?_of_head (c := c) ?_ ?_
    · rw [htext, hc]
      rfl
    · rintro rfl
      exact absurd hpart (by decide)
  · rw [htext]
    refine fun hmem => (List.mem_append.mp hmem).elim (notMem_of_isPart_eq_false (by decide)) ?_
    cases format <;> decide

theorem targetName_eq_of_fileOf {format : OutputFormat} {a b : Artifact}
    (h : fileOf format a = fileOf format b) : a.targetName = b.targetName := by
  unfold fileOf at h
  have hchars := congrArg String.toList h
  simp only [String.toList_append, List.append_assoc] at hchars
  exact Ident.ext_text (String.toList_inj.mp (List.append_cancel_right hchars))

theorem fileName?_pathOf (s : FileSettings) (a : Artifact) :
    Path.fileName? (s.pathOf a) = some (fileOf s.format a) :=
  Path.fileName?_join (plain_fileOf s.format a) s.directory

theorem extension_eq_iff {f g : OutputFormat} : f.extension = g.extension ↔ f = g := by
  cases f <;> cases g <;> decide

theorem plain_manifestName : Path.Plain manifestName := ⟨by decide, by decide⟩

/-- The extension of the manifest is that of no format. -/
theorem ne_manifestName {name : String} {format : OutputFormat}
    (h : Path.nameExtension? name = some format.extension) : name ≠ manifestName := by
  rintro rfl
  cases format <;> exact absurd h (by decide)

theorem fileOf_ne_manifestName (format : OutputFormat) (a : Artifact) :
    fileOf format a ≠ manifestName :=
  ne_manifestName (nameExtension?_fileOf format a)

namespace FileSettings

variable {s : FileSettings} {st st' : FileState}

/-! ## 2. Writing -/

/-- A file that was written is there, beside all that was there before. -/
structure Wrote (path content : String) (st st' : FileState) : Prop where
  keeps : st.tree.Keeps st'.tree
  named : st.tree.Named → st'.tree.Named
  read : st'.tree.read? path = some content
  /-- Other entries are as they were, but for directories that were made. -/
  others : ∀ l, st'.tree.locate? path ≠ some l → st.tree.FurnishesAt st'.tree l
  previous_eq : st'.previous = st.previous
  written_eq : st'.written = st.written

theorem wrote_of_writeFile {path content : String}
    (h : s.writeFile path content st = (.ok (), st')) : Wrote path content st st' := by
  have hmade := Tree.furnishes_makeDirectory st.tree s.directory
  unfold writeFile at h
  simp only at h
  split at h
  · cases h
  · split at h
    · cases h
    · split at h
      · cases h
      · split at h
        · next tree hwrite =>
          cases h
          constructor
          · exact hmade.adds.keeps.trans (Tree.keeps_write? hwrite)
          · exact fun hnamed => (hnamed.makeDirectory s.directory).write? hwrite
          · exact Tree.read?_of_write? hwrite
          · exact fun l hother => (hmade l).trans (.inl (Tree.get?_of_write? hwrite hother))
          · rfl
          · rfl
        · cases h

/-- Other files of the directory hold what they held. -/
theorem Wrote.read_of_ne {m n content text : String}
    (h : Wrote (Path.join s.directory m) content st st') (hm : Path.Plain m) (hn : Path.Plain n)
    (hne : n ≠ m) (hread : st.tree.read? (Path.join s.directory n) = some text) :
    st'.tree.read? (Path.join s.directory n) = some text := by
  obtain ⟨l, readOnly, hl, hentry⟩ := Tree.read?_eq_some_iff.mp hread
  have hl' := h.keeps.locate? hl
  refine Tree.read?_eq_some_iff.mpr ⟨l, readOnly, hl', (h.others l fun hsame => ?_).get? hentry⟩
  have hlast := Tree.getLast?_of_locate?_join hm hsame
  rw [Tree.getLast?_of_locate?_join hn hl'] at hlast
  exact hne (Option.some.inj hlast)

theorem within_eq_ok {σ α : Type} {message : String} {step : Step σ α} {a : α} {x y : σ}
    (h : step.within message x = (.ok a, y)) : step x = (.ok a, y) := by
  unfold Step.within at h
  split at h
  · cases h
  · exact h

/-- The state after artifacts were handed to the sink. -/
structure Persisted (s : FileSettings) (artifacts : List Artifact) (st st' : FileState) : Prop where
  keeps : st.tree.Keeps st'.tree
  named : st.tree.Named → st'.tree.Named
  others : ∀ l, (∀ a ∈ artifacts, st'.tree.locate? (s.pathOf a) ≠ some l) →
    st.tree.FurnishesAt st'.tree l
  previous_eq : st'.previous = st.previous
  written_eq : st'.written = st.written ++ artifacts.map s.pathOf

theorem wrote_of_persist {a : Artifact} (h : s.persist a st = (.ok (), st')) :
    ∃ r, Wrote (s.pathOf a) (a.written s.format) st r ∧
      st' = { r with written := r.written ++ [s.pathOf a] } := by
  obtain ⟨⟨⟩, r, hwrite, hrest⟩ := andThen_eq_ok_iff.mp h
  cases hrest
  exact ⟨r, wrote_of_writeFile (within_eq_ok hwrite), rfl⟩

theorem persisted_of_persistAll {artifacts : List Artifact}
    (h : s.sink.persistAll artifacts st = (.ok (), st')) : Persisted s artifacts st st' := by
  induction artifacts generalizing st with
  | nil =>
    cases h
    exact ⟨.refl _, id, fun l _ => .refl _ l, rfl, (List.append_nil _).symm⟩
  | cons a rest ih =>
    obtain ⟨⟨⟩, _, hpersist, hrest⟩ := andThen_eq_ok_iff.mp h
    obtain ⟨r, hwrote, rfl⟩ := wrote_of_persist hpersist
    have hmore := ih hrest
    constructor
    · exact hwrote.keeps.trans hmore.keeps
    · exact fun hnamed => hmore.named (hwrote.named hnamed)
    · intro l hl
      obtain ⟨hfirst, hothers⟩ := List.forall_mem_cons.mp hl
      have hnot : r.tree.locate? (s.pathOf a) ≠ some l :=
        fun hplace => hfirst (hmore.keeps.locate? hplace)
      exact (hwrote.others l hnot).trans (hmore.others l hothers)
    · exact hmore.previous_eq.trans hwrote.previous_eq
    · rw [hmore.written_eq, hwrote.written_eq, List.append_assoc]
      rfl

theorem read_of_persistAll {artifacts : List Artifact} {n text : String} (hn : Path.Plain n)
    (h : s.sink.persistAll artifacts st = (.ok (), st'))
    (hother : ∀ a ∈ artifacts, n ≠ fileOf s.format a)
    (hread : st.tree.read? (Path.join s.directory n) = some text) :
    st'.tree.read? (Path.join s.directory n) = some text := by
  induction artifacts generalizing st with
  | nil =>
    cases h
    exact hread
  | cons a rest ih =>
    obtain ⟨⟨⟩, _, hpersist, hrest⟩ := andThen_eq_ok_iff.mp h
    obtain ⟨r, hwrote, rfl⟩ := wrote_of_persist hpersist
    obtain ⟨hne, hmore⟩ := List.forall_mem_cons.mp hother
    exact ih hrest hmore (hwrote.read_of_ne (plain_fileOf s.format a) hn hne hread)

/-- Artifacts with different names are all there in the end. -/
theorem holds_of_persistAll {artifacts : List Artifact}
    (hdistinct : artifacts.Pairwise fun x y => x.targetName ≠ y.targetName)
    (h : s.sink.persistAll artifacts st = (.ok (), st')) :
    ∀ a ∈ artifacts, st'.tree.read? (s.pathOf a) = some (a.written s.format) := by
  induction artifacts generalizing st with
  | nil => nofun
  | cons a rest ih =>
    obtain ⟨⟨⟩, _, hpersist, hrest⟩ := andThen_eq_ok_iff.mp h
    obtain ⟨r, hwrote, rfl⟩ := wrote_of_persist hpersist
    obtain ⟨hfirst, hdistinct⟩ := List.pairwise_cons.mp hdistinct
    refine List.forall_mem_cons.mpr ⟨?_, ih hdistinct hrest⟩
    refine read_of_persistAll (plain_fileOf s.format a) hrest (fun b hb hfile => ?_) hwrote.read
    exact hfirst b hb (targetName_eq_of_fileOf hfile)

/-! ## 3. Stale files -/

section
variable {name : String}

theorem isStale_iff : s.isStale st name = true ↔
    Path.nameExtension? name = some s.format.extension ∧
      (∃ listed ∈ st.previous, Path.same name listed = true) ∧
        ∀ path ∈ st.written, Path.fileName? path ≠ some name := by
  unfold isStale
  rw [Bool.and_eq_true, Bool.and_eq_true, beq_iff_eq, List.any_eq_true, Bool.not_eq_true',
    List.any_eq_false, and_assoc]
  simp only [beq_iff_eq, ne_eq]

/-- A name with the extension of a format is the plain name that it means. -/
theorem eq_of_same {listed : String} {format : OutputFormat} (hlisted : Path.Plain listed)
    (hextension : Path.nameExtension? name = some format.extension)
    (h : Path.same name listed = true) : name = listed := by
  have hcomponents : Path.components name = [.normal listed] := by
    rw [← Path.components_plain hlisted]
    exact beq_iff_eq.mp h
  refine Path.eq_of_components hcomponents hextension ?_ ?_
  · cases format <;> decide
  · cases format <;> decide

/-- A stale name is that of a file which is there. -/
theorem of_mem_staleNames_isFile (h : name ∈ s.staleNames st) :
    s.directory ≠ "" ∧ st.tree.isFile (Path.join s.directory name) = true ∧
      s.isStale st name = true := by
  unfold staleNames at h
  split at h
  · cases h
  · next l hl =>
    obtain ⟨-, hstale⟩ := List.mem_filter.mp (mem_sortedNames.mp h)
    refine ⟨?_, Bool.and_eq_true_iff.mp hstale⟩
    intro hempty
    rw [hempty] at hl
    cases hl

/-- Other names than plain ones have no extension. -/
theorem plain_of_mem_staleNames (hnamed : st.tree.Named) (h : name ∈ s.staleNames st) :
    Path.Plain name := by
  have hextension := (isStale_iff.mp (of_mem_staleNames_isFile h).2.2).1
  unfold staleNames at h
  split at h
  · cases h
  · obtain ⟨hchild, -⟩ := List.mem_filter.mp (mem_sortedNames.mp h)
    obtain ⟨⟨child, e⟩, hmem, rfl⟩ := List.mem_map.mp hchild
    refine (hnamed.plain_of_mem_children hmem).resolve_right ?_
    have hno : ∀ format : OutputFormat,
        Path.nameExtension? ".." ≠ some format.extension ∧
          Path.nameExtension? "/" ≠ some format.extension := by
      intro format
      cases format <;> decide
    rintro (hparent | hroot)
    · exact (hno s.format).1 (hparent ▸ hextension)
    · exact (hno s.format).2 (hroot ▸ hextension)

theorem pairwise_staleNames (s : FileSettings) (st : FileState) :
    (s.staleNames st).Pairwise (· < ·) := by
  unfold staleNames
  split
  · exact .nil
  · exact pairwise_sortedNames _

theorem isStale_of_mem_staleNames (h : name ∈ s.staleNames st) :
    s.directory ≠ "" ∧ s.isStale st name = true :=
  ⟨(of_mem_staleNames_isFile h).1, (of_mem_staleNames_isFile h).2.2⟩

/-- The stale names of the files that are there. -/
theorem mem_staleNames_iff_isStale (hname : Path.Plain name)
    (hfile : st.tree.isFile (Path.join s.directory name) = true) :
    name ∈ s.staleNames st ↔ s.directory ≠ "" ∧ s.isStale st name = true := by
  refine ⟨isStale_of_mem_staleNames, ?_⟩
  rintro ⟨hdirectory, hstale⟩
  obtain ⟨l, hl, content, readOnly, hentry⟩ := Tree.isFile_iff.mp hfile
  obtain ⟨d, hd, rfl⟩ := Tree.locate?_join hname hdirectory hl
  have hchild : name ∈ (st.tree.children d).map Prod.fst :=
    List.mem_map.mpr ⟨_, Tree.mem_children hentry, rfl⟩
  unfold staleNames
  rw [hd]
  exact mem_sortedNames.mpr
    (List.mem_filter.mpr ⟨hchild, Bool.and_eq_true_iff.mpr ⟨hfile, hstale⟩⟩)

section
variable (hprevious : ∀ name ∈ st.previous, Path.Plain name)
include hprevious

/-- A stale file has a plain name from the manifest and the extension of the
format. -/
theorem of_mem_staleNames (h : name ∈ s.staleNames st) :
    s.directory ≠ "" ∧ Path.Plain name ∧ name ∈ st.previous ∧
      Path.nameExtension? name = some s.format.extension := by
  obtain ⟨hdirectory, hstale⟩ := isStale_of_mem_staleNames h
  obtain ⟨hextension, ⟨listed, hlisted, hsame⟩, -⟩ := isStale_iff.mp hstale
  obtain rfl := eq_of_same (hprevious listed hlisted) hextension hsame
  exact ⟨hdirectory, hprevious name hlisted, hlisted, hextension⟩

/-- Which files are stale, of those that are there and were not written. -/
theorem mem_staleNames_iff (hname : Path.Plain name)
    (hfile : st.tree.isFile (Path.join s.directory name) = true)
    (hwritten : ∀ path ∈ st.written, Path.fileName? path ≠ some name) :
    name ∈ s.staleNames st ↔ s.directory ≠ "" ∧ name ∈ st.previous ∧
      Path.nameExtension? name = some s.format.extension := by
  constructor
  · intro h
    obtain ⟨hdirectory, -, hmem, hextension⟩ := of_mem_staleNames hprevious h
    exact ⟨hdirectory, hmem, hextension⟩
  · rintro ⟨hdirectory, hmem, hextension⟩
    rw [mem_staleNames_iff_isStale hname hfile, isStale_iff]
    exact ⟨hdirectory, hextension, ⟨name, hmem, beq_self_eq_true _⟩, hwritten⟩

end

end

/-! ## 4. The report and the manifest -/

/-- What is removed are files, and only files at these paths are gone. -/
theorem loses_removeAll (t : Tree) (paths : List String) :
    (removeAll t paths).1.Sublist paths ∧ t.Loses (removeAll t paths).2 (removeAll t paths).1 := by
  induction paths generalizing t with
  | nil => exact ⟨.refl [], .refl t⟩
  | cons path rest ih =>
    unfold removeAll
    split
    · next tree hremove =>
      obtain ⟨hsublist, hloses⟩ := ih tree
      exact ⟨hsublist.cons_cons path, (Tree.loses_remove? hremove).trans hloses⟩
    · obtain ⟨hsublist, hloses⟩ := ih t
      exact ⟨hsublist.cons path, hloses⟩

/-- The paths that the manifest is saved for. -/
def keptPaths (report : SinkReport) : List String :=
  report.written ++ report.stale.filter fun path => !report.pruned.contains path

/-- The sink finished in a state and left another one behind. -/
structure Finished (s : FileSettings) (report : SinkReport) (st st' : FileState) : Prop where
  written_eq : report.written = st.written
  stale_eq : report.stale = (s.staleNames st).map (Path.join s.directory)
  pruned : report.pruned.Sublist report.stale
  /-- A file is there in the end, unless it was pruned. -/
  isFile : ∀ path, st.tree.isFile path = true →
    st'.tree.isFile path = true ∨
      ∃ lost ∈ report.pruned, st'.tree.locate? lost = st'.tree.locate? path
  manifest : st'.tree.read? s.manifestPath =
    some (manifestText ((keptPaths report).filterMap Path.fileName?))

/-- What a run prunes, if it is to prune at all. -/
theorem exists_pruned (s : FileSettings) (t : Tree) (paths : List String) :
    ∃ pruned tree, (if s.prune = true then removeAll t paths else ([], t)) = (pruned, tree) ∧
      pruned.Sublist paths ∧ t.Loses tree pruned := by
  split
  · exact ⟨_, _, rfl, loses_removeAll t paths⟩
  · exact ⟨[], t, rfl, List.nil_sublist _, .refl t⟩

/-- The sink prunes, if it is to, and then saves the manifest. -/
theorem exists_of_finish {report : SinkReport} (h : s.finish st = (.ok report, st')) :
    report.written = st.written ∧
    report.stale = (s.staleNames st).map (Path.join s.directory) ∧
    ∃ tree, (if s.prune = true then removeAll st.tree report.stale else ([], st.tree)) =
        (report.pruned, tree) ∧
      Wrote s.manifestPath (manifestText ((keptPaths report).filterMap Path.fileName?))
        { st with tree } st' := by
  rcases hpruned : (if s.prune = true then
      removeAll st.tree ((s.staleNames st).map (Path.join s.directory)) else ([], st.tree)) with
    ⟨pruned, tree⟩
  unfold finish at h
  simp only [hpruned] at h
  split at h
  · next hwrite =>
    cases h
    have hwrote := wrote_of_writeFile hwrite
    refine ⟨hwrote.written_eq, rfl, tree, hpruned, ?_⟩
    rw [keptPaths, hwrote.written_eq]
    exact hwrote
  · cases h

theorem finished_of_finish {report : SinkReport} (h : s.finish st = (.ok report, st')) :
    Finished s report st st' := by
  obtain ⟨hwritten, hstale, tree, hpruned, hwrote⟩ := exists_of_finish h
  obtain ⟨pruned, tree', hboth, hsublist, hloses⟩ := exists_pruned s st.tree report.stale
  obtain ⟨rfl, rfl⟩ := Prod.mk.inj (hpruned.symm.trans hboth)
  refine ⟨hwritten, hstale, hsublist, fun path hfile => ?_, hwrote.read⟩
  rcases hloses.isFile hfile with hkept | ⟨lost, hlost, hplace⟩
  · exact .inl (hwrote.keeps.isFile hkept)
  · refine .inr ⟨lost, hlost, ?_⟩
    obtain ⟨l, hl, -⟩ := Tree.isFile_iff.mp hfile
    have hl' := hloses.directories.locate? hl
    rw [hwrote.keeps.locate? hl', hwrote.keeps.locate? (hplace.trans hl')]

end FileSettings

end DataVault.Output
