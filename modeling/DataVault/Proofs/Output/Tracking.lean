/-
DataVault.Proofs.Output.Tracking — which files the later runs still know.

A file that no longer belongs to a run is meant to be reported as stale until
it is pruned. Each run knows of such files only from the manifest of the run
before, looks only for those with the extension of its own format, and saves
only those that it found. A run in another format therefore drops the file
from the manifest, and no later run finds it again, in whatever format.

One run is settled first: what it reports and what it lists are the same
files (`tracks_iff_mem`), and of the files that it leaves alone those are
stale that the manifest listed and that have its extension (`mem_stale_iff`).
Both take for granted that the output directory can be listed, as every
directory of a tree can.
`tracks_iff` follows by induction on the runs after the one that wrote the
file.
-/
import DataVault.Proofs.Output.FileSink

namespace DataVault.Output

open DataVault.Artifact DataVault.Files DataVault.Sql

/-! ## 1. Runs -/

namespace FileSettings

/-- Opens the sink, hands it the artifacts and lets it finish. -/
def run (s : FileSettings) (artifacts : List Artifact) (t : Tree) :
    Except Failure SinkReport × Tree :=
  match s.start t with
  | .error f => (.error f, t)
  | .ok st =>
      let (result, st) := ((s.sink.persistAll artifacts).andThen fun _ => s.sink.finish) st
      (result, st.tree)

/-- The names in the manifest, none if there is no manifest. -/
def manifestNames (s : FileSettings) (t : Tree) : List String :=
  ((t.read? s.manifestPath).bind manifestFiles?).getD []

end FileSettings

/-- A run of the file sink, with the files before and after it. -/
structure FileRun where
  settings : FileSettings
  artifacts : List Artifact
  before : Tree
  after : Tree
  report : SinkReport

namespace FileRun

/-- The run went through. -/
def Completed (r : FileRun) : Prop :=
  r.settings.run r.artifacts r.before = (.ok r.report, r.after)

/-- The run speaks of a file: it wrote it or reports it as stale, and lists it
in the manifest that it saves. -/
def Tracks (r : FileRun) (path : String) : Prop :=
  (path ∈ r.report.written ∨ path ∈ r.report.stale) ∧
    ∃ name ∈ r.settings.manifestNames r.after, Path.fileName? path = some name

/-- The file is there when the run begins, and the run neither writes nor
prunes it. -/
structure Leaves (r : FileRun) (path : String) : Prop where
  isFile : r.before.isFile path = true
  notWritten : path ∉ r.report.written
  notPruned : path ∉ r.report.pruned

end FileRun

/-- Completed runs on one output directory, the last one first. There is no
manifest before the first of them, and between two of them the manifest stays
as it is, whatever becomes of the other files. -/
inductive Runs (directory : String) : List FileRun → Prop
  | first {r : FileRun} (completed : r.Completed) (directory_eq : r.settings.directory = directory)
      (fresh : r.before.exists? r.settings.manifestPath = false) : Runs directory [r]
  | next {r last : FileRun} {earlier : List FileRun} (runs : Runs directory (last :: earlier))
      (completed : r.Completed) (directory_eq : r.settings.directory = directory)
      (manifest : r.before.read? r.settings.manifestPath =
        last.after.read? last.settings.manifestPath) : Runs directory (r :: last :: earlier)

/-! ## 2. One run -/

theorem start_eq_ok {s : FileSettings} {t : Tree} {st : FileState} (h : s.start t = .ok st) :
    st = ⟨t, s.manifestNames t, []⟩ := by
  unfold FileSettings.start at h
  unfold FileSettings.manifestNames
  simp only at h
  split at h
  · split at h
    · cases h
    · next text hread =>
      split at h
      · next names hnames =>
        cases h
        rw [hread, Option.bind_some, hnames, Option.getD_some]
      · cases h
  · next hno =>
    cases h
    rw [Tree.read?_of_not_exists (Bool.eq_false_iff.mpr hno)]
    rfl

namespace FileRun.Completed

variable {r : FileRun} (h : r.Completed)
include h

/-- A run hands all artifacts to the sink, and then the sink finishes. -/
theorem exists_steps : ∃ st st', r.settings.sink.persistAll r.artifacts
      ⟨r.before, r.settings.manifestNames r.before, []⟩ = (.ok (), st) ∧
    r.settings.finish st = (.ok r.report, st') ∧ st'.tree = r.after := by
  unfold Completed FileSettings.run at h
  split at h
  · cases h
  · next st hstart =>
    have hst := start_eq_ok hstart
    subst hst
    obtain ⟨hresult, htree⟩ := Prod.mk.inj h
    obtain ⟨⟨⟩, st, hpersist, hfinish⟩ := andThen_eq_ok_iff.mp (Prod.ext hresult rfl)
    exact ⟨st, _, hpersist, hfinish, htree⟩

theorem exists_persisted : ∃ st st', FileSettings.Persisted r.settings r.artifacts
      ⟨r.before, r.settings.manifestNames r.before, []⟩ st ∧
    r.settings.finish st = (.ok r.report, st') ∧ st'.tree = r.after := by
  obtain ⟨st, st', hpersist, hfinish, htree⟩ := h.exists_steps
  exact ⟨st, st', FileSettings.persisted_of_persistAll hpersist, hfinish, htree⟩

/-- The state in which the sink of the run finishes. -/
theorem exists_finish : ∃ st : FileState, r.before.Keeps st.tree ∧
    st.previous = r.settings.manifestNames r.before ∧ st.written = r.report.written ∧
      r.report.stale = (r.settings.staleNames st).map (Path.join r.settings.directory) := by
  obtain ⟨st, st', hpersisted, hfinish, -⟩ := h.exists_persisted
  have hfinished := FileSettings.finished_of_finish hfinish
  exact ⟨st, hpersisted.keeps, hpersisted.previous_eq, hfinished.written_eq.symm,
    hfinished.stale_eq⟩

theorem written_eq : r.report.written = r.artifacts.map r.settings.pathOf := by
  obtain ⟨st, st', hpersisted, hfinish, -⟩ := h.exists_persisted
  rw [(FileSettings.finished_of_finish hfinish).written_eq, hpersisted.written_eq]
  rfl

theorem mem_manifestNames_iff {name : String} : name ∈ r.settings.manifestNames r.after ↔
    ∃ path ∈ FileSettings.keptPaths r.report, Path.fileName? path = some name := by
  obtain ⟨st, st', -, hfinish, htree⟩ := h.exists_persisted
  unfold FileSettings.manifestNames
  rw [← htree, (FileSettings.finished_of_finish hfinish).manifest, Option.bind_some,
    manifestFiles?_manifestText, Option.getD_some, mem_sortedNames, List.mem_filterMap]

theorem plain_of_mem {name : String} (hname : name ∈ r.settings.manifestNames r.after) :
    Path.Plain name := by
  obtain ⟨path, -, hpath⟩ := h.mem_manifestNames_iff.mp hname
  exact Path.plain_of_fileName? hpath

theorem eq_join_of_mem_written {path name : String} (hpath : path ∈ r.report.written)
    (hname : Path.fileName? path = some name) : path = Path.join r.settings.directory name := by
  rw [h.written_eq] at hpath
  obtain ⟨a, -, rfl⟩ := List.mem_map.mp hpath
  rw [fileName?_pathOf] at hname
  cases hname
  rfl

section
variable (hfound : ∀ name ∈ r.settings.manifestNames r.before, Path.Plain name)
include hfound

/-- A stale path is below the output directory, under a name that the run found
in the manifest and did not write. -/
theorem of_mem_stale {path : String} (hpath : path ∈ r.report.stale) :
    ∃ name ∈ r.settings.manifestNames r.before, path = Path.join r.settings.directory name ∧
      path ∉ r.report.written := by
  obtain ⟨st, -, hprevious, hwritten, hstale⟩ := h.exists_finish
  rw [← hprevious] at hfound ⊢
  rw [hstale] at hpath
  obtain ⟨name, hname, rfl⟩ := List.mem_map.mp hpath
  obtain ⟨-, hplain, hlisted, -⟩ := FileSettings.of_mem_staleNames hfound hname
  obtain ⟨-, -, hunwritten⟩ :=
    FileSettings.isStale_iff.mp (FileSettings.isStale_of_mem_staleNames hname).2
  refine ⟨name, hlisted, rfl, fun hmem => ?_⟩
  rw [← hwritten] at hmem
  exact hunwritten _ hmem (Path.fileName?_join hplain _)

theorem eq_join_of_mem_stale {path name : String} (hpath : path ∈ r.report.stale)
    (hname : Path.fileName? path = some name) : path = Path.join r.settings.directory name := by
  obtain ⟨found, hmem, rfl, -⟩ := h.of_mem_stale hfound hpath
  rw [Path.fileName?_join (hfound found hmem)] at hname
  cases hname
  rfl

variable {name : String} (hname : Path.Plain name)
include hname

/-- What the manifest lists is reported. -/
theorem tracks_iff_mem : r.Tracks (Path.join r.settings.directory name) ↔
    name ∈ r.settings.manifestNames r.after := by
  constructor
  · rintro ⟨-, listed, hlisted, hfile⟩
    rw [Path.fileName?_join hname] at hfile
    cases hfile
    exact hlisted
  · intro hlisted
    refine ⟨?_, name, hlisted, Path.fileName?_join hname _⟩
    obtain ⟨path, hpath, hfile⟩ := h.mem_manifestNames_iff.mp hlisted
    rcases List.mem_append.mp hpath with hwritten | hkept
    · exact .inl (h.eq_join_of_mem_written hwritten hfile ▸ hwritten)
    · have hstale := List.mem_of_mem_filter hkept
      exact .inr (h.eq_join_of_mem_stale hfound hstale hfile ▸ hstale)

/-- Of the files that are there and that a run does not write, those are stale
that it found in the manifest and that have the extension of its format. -/
theorem mem_stale_iff
    (hfile : r.before.isFile (Path.join r.settings.directory name) = true)
    (hunwritten : Path.join r.settings.directory name ∉ r.report.written) :
    Path.join r.settings.directory name ∈ r.report.stale ↔
      r.settings.directory ≠ "" ∧ name ∈ r.settings.manifestNames r.before ∧
        Path.nameExtension? name = some r.settings.format.extension := by
  obtain ⟨st, hkeeps, hprevious, hwritten, hstale⟩ := h.exists_finish
  rw [← hprevious] at hfound
  have hother : ∀ path ∈ st.written, Path.fileName? path ≠ some name := by
    rw [hwritten]
    intro path hpath hfile
    exact hunwritten (h.eq_join_of_mem_written hpath hfile ▸ hpath)
  rw [hstale, ← hprevious,
    ← FileSettings.mem_staleNames_iff hfound hname (hkeeps.isFile hfile) hother]
  constructor
  · intro hin
    obtain ⟨n, hn, hjoin⟩ := List.mem_map.mp hin
    have hplain := (FileSettings.of_mem_staleNames hfound hn).2.1
    rw [← Path.join_inj hplain hname hjoin]
    exact hn
  · exact List.mem_map_of_mem

/-- A file that a run leaves is tracked exactly if it is stale: it stays in the
manifest because it is not pruned. -/
theorem tracks_iff_mem_stale (hleaves : r.Leaves (Path.join r.settings.directory name)) :
    r.Tracks (Path.join r.settings.directory name) ↔
    Path.join r.settings.directory name ∈ r.report.stale := by
  constructor
  · rintro ⟨hreported, -⟩
    exact hreported.resolve_left hleaves.notWritten
  · intro hstale
    rw [h.tracks_iff_mem hfound hname, h.mem_manifestNames_iff]
    refine ⟨_, List.mem_append_right _ (List.mem_filter.mpr ⟨hstale, ?_⟩),
      Path.fileName?_join hname _⟩
    simpa using hleaves.notPruned

end

end FileRun.Completed

/-! ## 3. Many runs -/

namespace Runs

variable {directory : String} {r last w : FileRun} {runs earlier later : List FileRun}

theorem forall_mem (h : Runs directory runs) :
    ∀ r ∈ runs, r.Completed ∧ r.settings.directory = directory := by
  induction h with
  | first completed directory_eq _ =>
    exact List.forall_mem_singleton.mpr ⟨completed, directory_eq⟩
  | next _ completed directory_eq _ ih =>
    exact List.forall_mem_cons.mpr ⟨⟨completed, directory_eq⟩, ih⟩

/-- A run finds the names that the run before it saved. -/
theorem found_eq (h : Runs directory (r :: last :: earlier)) :
    Runs directory (last :: earlier) ∧
      r.settings.manifestNames r.before = last.settings.manifestNames last.after := by
  cases h with
  | next runs _ _ manifest =>
    refine ⟨runs, ?_⟩
    unfold FileSettings.manifestNames
    rw [manifest]

/-- The names that a run finds are plain. -/
theorem plain_found (h : Runs directory (r :: earlier)) :
    ∀ name ∈ r.settings.manifestNames r.before, Path.Plain name := by
  cases earlier with
  | nil =>
    cases h with
    | first _ _ fresh =>
      unfold FileSettings.manifestNames
      rw [Tree.read?_of_not_exists fresh]
      nofun
  | cons last earlier =>
    obtain ⟨hearlier, hfound⟩ := h.found_eq
    rw [hfound]
    exact fun _ => (hearlier.forall_mem last List.mem_cons_self).1.plain_of_mem

section
variable {a : Artifact} (ha : a ∈ w.artifacts)
include ha

/-- The run that wrote a file tracks it. -/
theorem tracks_of_mem (h : w.Completed) : w.Tracks (w.settings.pathOf a) := by
  have hwritten : w.settings.pathOf a ∈ w.report.written := by
    rw [h.written_eq]
    exact List.mem_map_of_mem ha
  refine ⟨.inl hwritten, fileOf w.settings.format a, ?_, fileName?_pathOf w.settings a⟩
  exact h.mem_manifestNames_iff.mpr ⟨_, List.mem_append_left _ hwritten,
    fileName?_pathOf w.settings a⟩

/-- After the run that wrote it, a file is tracked for as long as the runs have
the format of that run. -/
theorem tracks_pathOf_iff (h : Runs directory (later ++ w :: earlier))
    (hleaves : ∀ q ∈ later, q.Leaves (w.settings.pathOf a))
    (hlast : (later ++ w :: earlier).head? = some r) :
    r.Tracks (w.settings.pathOf a) ↔
      ∀ q ∈ later, directory ≠ "" ∧ q.settings.format = w.settings.format := by
  have hname := plain_fileOf w.settings.format a
  have hpath : ∀ q ∈ later ++ w :: earlier, w.settings.pathOf a =
      Path.join q.settings.directory (fileOf w.settings.format a) := by
    intro q hq
    rw [(h.forall_mem q hq).2, ← (h.forall_mem w (by simp)).2]
    rfl
  induction later generalizing r with
  | nil =>
    cases hlast
    exact iff_of_true (tracks_of_mem ha (h.forall_mem w List.mem_cons_self).1) nofun
  | cons q rest ih =>
    cases hlast
    obtain ⟨last, tail, hrest⟩ := List.exists_cons_of_ne_nil
      (List.append_ne_nil_of_right_ne_nil rest (List.cons_ne_nil w earlier))
    rw [List.cons_append, hrest] at h
    obtain ⟨hearlier, hfound⟩ := h.found_eq
    obtain ⟨hq, hmore⟩ := List.forall_mem_cons.mp hleaves
    obtain ⟨hpathq, hpaths⟩ := List.forall_mem_cons.mp hpath
    have hstep : q.Tracks (w.settings.pathOf a) ↔ directory ≠ "" ∧
        last.Tracks (w.settings.pathOf a) ∧ w.settings.format = q.settings.format := by
      obtain ⟨hcompleted, hdirectory⟩ := h.forall_mem q List.mem_cons_self
      have hlast : last ∈ rest ++ w :: earlier := hrest ▸ List.mem_cons_self
      rw [hpaths last hlast, (hearlier.forall_mem last List.mem_cons_self).1.tracks_iff_mem
        hearlier.plain_found hname, ← hfound, ← hpaths last hlast, hpathq]
      rw [hpathq] at hq
      rw [hcompleted.tracks_iff_mem_stale h.plain_found hname hq,
        hcompleted.mem_stale_iff h.plain_found hname hq.isFile hq.notWritten, hdirectory,
        nameExtension?_fileOf, Option.some.injEq, extension_eq_iff]
    have hhead : (rest ++ w :: earlier).head? = some last := hrest ▸ rfl
    have hlater := ih (hrest ▸ hearlier) hmore hhead hpaths
    rw [hstep, List.forall_mem_cons]
    constructor
    · rintro ⟨hdir, htracked, hformat⟩
      exact ⟨⟨hdir, hformat.symm⟩, hlater.mp htracked⟩
    · rintro ⟨⟨hdir, hformat⟩, hall⟩
      exact ⟨hdir, hlater.mpr hall, hformat.symm⟩

end

end Runs

/-- A file that a run wrote, and that the later runs leave where it is, is
tracked by the last of them exactly if they all have the format of the run
that wrote it, and the output directory is not the empty path. -/
theorem tracks_iff (directory : String) (later earlier : List FileRun) (w r : FileRun)
    (hruns : Runs directory (later ++ w :: earlier))
    (hlast : (later ++ w :: earlier).head? = some r) (path : String)
    (hwritten : path ∈ w.report.written) (hleaves : ∀ q ∈ later, q.Leaves path) :
    r.Tracks path ↔ ∀ q ∈ later, directory ≠ "" ∧ q.settings.format = w.settings.format := by
  rw [(hruns.forall_mem w (by simp)).1.written_eq] at hwritten
  obtain ⟨a, ha, rfl⟩ := List.mem_map.mp hwritten
  exact hruns.tracks_pathOf_iff ha hleaves hlast

/-! ## 4. Two runs -/

/-- The run of these settings over these files. -/
def FileRun.of (s : FileSettings) (artifacts : List Artifact) (t : Tree) : FileRun where
  settings := s
  artifacts := artifacts
  before := t
  after := (s.run artifacts t).2
  report := (s.run artifacts t).1.toOption.getD .empty

theorem FileRun.completed_of {s : FileSettings} {artifacts : List Artifact} {t : Tree}
    (h : (s.run artifacts t).1.isOk = true) : (FileRun.of s artifacts t).Completed := by
  unfold Completed FileRun.of
  rcases hrun : s.run artifacts t with ⟨result | report, after⟩
  · rw [hrun] at h
    cases h
  · rfl

section
variable (directory : String)

/-- A run without anything before it that writes a table. -/
def firstRun : FileRun :=
  .of ⟨directory, .sqlx, false⟩ [customerTable] .empty

/-- The run after it, which writes another table in some format. -/
def secondRun (format : OutputFormat) : FileRun :=
  .of ⟨directory, format, false⟩ [ordersTable] (firstRun directory).after

variable (format : OutputFormat) (path : String)

/-- Both runs go through, the first one writes the file, and the second one
leaves it where it is. -/
def LeftBySecond : Prop :=
  Tree.empty.exists? (firstRun directory).settings.manifestPath = false ∧
  ((firstRun directory).settings.run (firstRun directory).artifacts .empty).1.isOk = true ∧
  ((secondRun directory format).settings.run (secondRun directory format).artifacts
    (firstRun directory).after).1.isOk = true ∧
  path ∈ (firstRun directory).report.written ∧ (firstRun directory).after.isFile path = true ∧
  path ∉ (secondRun directory format).report.written ∧
  path ∉ (secondRun directory format).report.pruned

instance : Decidable (LeftBySecond directory format path) :=
  inferInstanceAs (Decidable (_ ∧ _ ∧ _ ∧ _ ∧ _ ∧ _ ∧ _))

variable {directory format path} (h : LeftBySecond directory format path)
include h

theorem LeftBySecond.runs : Runs directory [secondRun directory format, firstRun directory] :=
  .next (.first (FileRun.completed_of h.2.1) rfl h.1) (FileRun.completed_of h.2.2.1) rfl rfl

theorem LeftBySecond.written : path ∈ (firstRun directory).report.written := h.2.2.2.1

theorem LeftBySecond.leaves : (secondRun directory format).Leaves path := by
  obtain ⟨-, -, -, -, hfile, hwritten, hpruned⟩ := h
  exact ⟨hfile, hwritten, hpruned⟩

end

/-- In one format the file is tracked. -/
theorem tracks_iff_same_format :
    (secondRun "definitions" .sqlx).Tracks "definitions/customer.sqlx" := by
  have hleft : LeftBySecond "definitions" .sqlx "definitions/customer.sqlx" := by decide +kernel
  refine (tracks_iff "definitions" [secondRun "definitions" .sqlx] [] (firstRun "definitions")
    (secondRun "definitions" .sqlx) hleft.runs rfl "definitions/customer.sqlx" hleft.written
    (List.forall_mem_singleton.mpr hleft.leaves)).mpr ?_
  exact List.forall_mem_singleton.mpr ⟨by decide, rfl⟩

/-- The file is there when the run is over, and the run neither reports it as
stale nor lists it. -/
def NotSpokenOf (r : FileRun) (path : String) : Prop :=
  r.after.isFile path = true ∧ path ∉ r.report.stale ∧
    ∀ name ∈ r.settings.manifestNames r.after, Path.fileName? path ≠ some name

instance (r : FileRun) (path : String) : Decidable (NotSpokenOf r path) :=
  inferInstanceAs (Decidable (_ ∧ _ ∧ ∀ name ∈ r.settings.manifestNames r.after, _))

/-- The second of two runs leaves a file that the first one wrote, and does not
speak of it. -/
structure Forgets (directory : String) (w r : FileRun) (path : String) : Prop where
  runs : Runs directory [r, w]
  written : path ∈ w.report.written
  leaves : r.Leaves path
  notSpokenOf : NotSpokenOf r path

/-- A file is forgotten by a run in the other format, and in any format where
the output directory is the empty path. -/
theorem forgets_other_format :
    Forgets "definitions" (firstRun "definitions") (secondRun "definitions" .sql)
        "definitions/customer.sqlx" ∧
      Forgets "" (firstRun "") (secondRun "" .sqlx) "customer.sqlx" := by
  have hformat : LeftBySecond "definitions" .sql "definitions/customer.sqlx" ∧
      NotSpokenOf (secondRun "definitions" .sql) "definitions/customer.sqlx" := by decide +kernel
  have hempty : LeftBySecond "" .sqlx "customer.sqlx" ∧
      NotSpokenOf (secondRun "" .sqlx) "customer.sqlx" := by decide +kernel
  exact ⟨⟨hformat.1.runs, hformat.1.written, hformat.1.leaves, hformat.2⟩,
    ⟨hempty.1.runs, hempty.1.written, hempty.1.leaves, hempty.2⟩⟩

end DataVault.Output
