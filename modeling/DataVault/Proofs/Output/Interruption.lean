/-
DataVault.Proofs.Output.Interruption — what a run that stopped leaves behind.

The files of a run are put in place one by one, and the manifest is saved when
all of them are. A run that stops at a file that it cannot write has put the
files before it in place and leaves the manifest as it found it
(`StoppedRun.Stopped.manifest_eq`). So a later run knows of the files of a
stopped run only what the runs before that had recorded: `stale_iff_recorded`
says that of the files that were written and are still there, those are
reported that the last run that completed wrote or kept. A file that only a
stopped run wrote is never reported.

The manifest is looked at in its place, not through the path that leads there.
A path with `..` in it may lead nowhere until a run has made the directories
on its way. That the output directory can be listed is taken for granted here
too.
-/
import DataVault.Proofs.Output.Tracking

namespace DataVault.Output

open DataVault.Artifact DataVault.Files

/-! ## 1. Files of other names -/

namespace FileSettings

variable {s : FileSettings} {st st' : FileState} {l : Location}

/-- Whether or not a file is written, the files of other names hold what they
held. -/
theorem content?_writeFile {name content : String} (hname : Path.Plain name)
    (hl : l.getLast? ≠ some name) :
    (s.writeFile (Path.join s.directory name) content st).2.tree.content? l =
      st.tree.content? l := by
  have hmade := (Tree.furnishes_makeDirectory st.tree s.directory l).content?
  unfold writeFile
  simp only
  split
  · exact hmade
  · split
    · exact hmade
    · split
      · exact hmade
      · split
        · next tree hwrite =>
          obtain ⟨k, readOnly, hk, hanchor, -, rfl⟩ := Tree.exists_of_write? hwrite
          have hne : l ≠ k := by
            rintro rfl
            exact hl (Tree.getLast?_of_locate?_join hname hk)
          rw [← hmade]
          exact Tree.content?_congr (by rw [Tree.get?_set hanchor, if_neg hne])
        · exact hmade

theorem written_writeFile (s : FileSettings) (path content : String) (st : FileState) :
    (s.writeFile path content st).2.written = st.written := by
  unfold writeFile
  simp only
  split
  · rfl
  · split
    · rfl
    · split
      · rfl
      · split <;> rfl

/-- An artifact is written and the next ones are handed on, or the sink stops
there. -/
theorem persistAll_cons_cases (s : FileSettings) (a : Artifact) (rest : List Artifact)
    (st : FileState) : ∃ r, r = (s.writeFile (s.pathOf a) (a.written s.format) st).2 ∧
      ((s.sink.persistAll (a :: rest) st).2 =
          (s.sink.persistAll rest { r with written := r.written ++ [s.pathOf a] }).2 ∨
        (s.sink.persistAll (a :: rest) st).2 = r) := by
  refine ⟨_, rfl, ?_⟩
  change (Step.andThen (Step.andThen (Step.within _ _) _) _ st).2 = _ ∨
    (Step.andThen (Step.andThen (Step.within _ _) _) _ st).2 = _
  unfold Step.andThen Step.within
  rcases s.writeFile (s.pathOf a) (a.written s.format) st with ⟨f | ⟨⟩, r⟩
  · exact .inr rfl
  · exact .inl rfl

/-- Whatever the sink is handed, and wherever it stops, the files of other names
hold what they held. -/
theorem content?_persistAll {artifacts : List Artifact}
    (hl : ∀ a ∈ artifacts, l.getLast? ≠ some (fileOf s.format a)) :
    (s.sink.persistAll artifacts st).2.tree.content? l = st.tree.content? l := by
  induction artifacts generalizing st with
  | nil => rfl
  | cons a rest ih =>
    obtain ⟨hfirst, hmore⟩ := List.forall_mem_cons.mp hl
    have hstep : (s.writeFile (s.pathOf a) (a.written s.format) st).2.tree.content? l =
        st.tree.content? l := content?_writeFile (plain_fileOf s.format a) hfirst
    obtain ⟨r, hr, hon | hstop⟩ := persistAll_cons_cases s a rest st
    · rw [hon, ih hmore, hr]
      exact hstep
    · rw [hstop, hr]
      exact hstep

/-- The files that are noted as written are those of the artifacts up to the one
at which the sink stops. -/
theorem written_persistAll (s : FileSettings) (artifacts : List Artifact) (st : FileState) :
    ∃ done, done <+: artifacts ∧
      (s.sink.persistAll artifacts st).2.written = st.written ++ done.map s.pathOf := by
  induction artifacts generalizing st with
  | nil => exact ⟨[], List.prefix_refl [], (List.append_nil _).symm⟩
  | cons a rest ih =>
    obtain ⟨r, hr, hon | hstop⟩ := persistAll_cons_cases s a rest st
    · obtain ⟨done, hdone, hwritten⟩ := ih { r with written := r.written ++ [s.pathOf a] }
      refine ⟨a :: done, (List.prefix_cons_inj a).mpr hdone, ?_⟩
      rw [hon, hwritten, hr, written_writeFile, List.append_assoc]
      rfl
    · refine ⟨[], List.nil_prefix, ?_⟩
      rw [hstop, hr, written_writeFile, List.map_nil, List.append_nil]

end FileSettings

/-! ## 2. Runs that stop -/

/-- A run of the file sink that did not finish, with the files before and after
it and the paths that it wrote. -/
structure StoppedRun where
  settings : FileSettings
  artifacts : List Artifact
  before : Tree
  after : Tree
  written : List String

/-- The sink was opened, and one of the artifacts could not be written. -/
def StoppedRun.Stopped (r : StoppedRun) : Prop :=
  ∃ st st' f, r.settings.start r.before = .ok st ∧
    r.settings.sink.persistAll r.artifacts st = (.error f, st') ∧
      st'.tree = r.after ∧ st'.written = r.written

/-- A run that was begun, and that completed or stopped. -/
inductive Attempt where
  | completed (r : FileRun)
  | stopped (r : StoppedRun)

namespace Attempt

def settings : Attempt → FileSettings
  | completed r => r.settings
  | stopped r => r.settings

def before : Attempt → Tree
  | completed r => r.before
  | stopped r => r.before

def after : Attempt → Tree
  | completed r => r.after
  | stopped r => r.after

/-- The files that the sink created. -/
def written : Attempt → List String
  | completed r => r.report.written
  | stopped r => r.written

/-- An attempt on an output directory, in an output format. -/
structure On (directory : String) (format : OutputFormat) (a : Attempt) : Prop where
  made : match a with
    | completed r => r.Completed
    | stopped r => r.Stopped
  directory_eq : a.settings.directory = directory
  format_eq : a.settings.format = format

end Attempt

/-- The place of the manifest of an output directory. -/
def manifestPlace (directory : String) : Location :=
  Tree.place (Path.join directory manifestName)

/-- The names that the manifest of a directory lists; none if there is no such
file. -/
def listedNames (directory : String) (t : Tree) : List String :=
  ((t.content? (manifestPlace directory)).bind manifestFiles?).getD []

/-- Attempts on one output directory in one format, the last one first. At the
beginning the manifest lists some plain names, and none if there is no
manifest. Between two attempts it stays as it is, whatever becomes of the other
files. -/
inductive Attempts (directory : String) (format : OutputFormat) (start : List String) :
    List Attempt → Prop
  | first {a : Attempt} (on : a.On directory format)
      (listed : listedNames directory a.before = start)
      (plain : ∀ name ∈ start, Path.Plain name) : Attempts directory format start [a]
  | next {a last : Attempt} {earlier : List Attempt}
      (attempts : Attempts directory format start (last :: earlier)) (on : a.On directory format)
      (manifest : a.before.content? (manifestPlace directory) =
        last.after.content? (manifestPlace directory)) :
      Attempts directory format start (a :: last :: earlier)

/-- The names that are recorded after some attempts: those of the files that the
last run that completed wrote or kept. -/
def recordedNames (start : List String) : List Attempt → List String
  | [] => start
  | .completed r :: _ => (FileSettings.keptPaths r.report).filterMap Path.fileName?
  | .stopped _ :: earlier => recordedNames start earlier

/-! ## 3. The manifest over attempts -/

section
variable {r : StoppedRun} (h : r.Stopped)
include h

/-- What the run left is what the sink left at the artifact where it stopped. -/
theorem StoppedRun.Stopped.persistAll_eq :
    (r.settings.sink.persistAll r.artifacts
      ⟨r.before, r.settings.manifestNames r.before, []⟩).2.tree = r.after ∧
    (r.settings.sink.persistAll r.artifacts
      ⟨r.before, r.settings.manifestNames r.before, []⟩).2.written = r.written := by
  obtain ⟨st, st', f, hstart, hpersist, htree, hwritten⟩ := h
  have hst := start_eq_ok hstart
  subst hst
  rw [hpersist]
  exact ⟨htree, hwritten⟩

/-- A run that stops leaves the manifest as it was. -/
theorem StoppedRun.Stopped.manifest_eq (directory : String) :
    r.after.content? (manifestPlace directory) = r.before.content? (manifestPlace directory) := by
  rw [← h.persistAll_eq.1]
  refine FileSettings.content?_persistAll fun a _ hlast => ?_
  rw [manifestPlace, Tree.getLast?_place_join plain_manifestName] at hlast
  exact fileOf_ne_manifestName _ a (Option.some.inj hlast).symm

/-- The paths that a stopped run wrote are those of artifacts. -/
theorem StoppedRun.Stopped.exists_of_mem_written {path : String} (hpath : path ∈ r.written) :
    ∃ a ∈ r.artifacts, path = r.settings.pathOf a := by
  obtain ⟨done, hdone, hpaths⟩ := FileSettings.written_persistAll r.settings r.artifacts
    ⟨r.before, r.settings.manifestNames r.before, []⟩
  rw [← h.persistAll_eq.2, hpaths, List.nil_append] at hpath
  obtain ⟨a, ha, rfl⟩ := List.mem_map.mp hpath
  exact ⟨a, hdone.subset ha, rfl⟩

end

/-- Where the manifest is read, it is read in its place. -/
theorem listedNames_eq {s : FileSettings} {t : Tree} {l : Location}
    (hl : t.locate? s.manifestPath = some l) : listedNames s.directory t = s.manifestNames t := by
  unfold listedNames manifestPlace FileSettings.manifestNames
  rw [Tree.read?_eq_content? hl, ← Tree.place_eq hl]
  rfl

theorem FileRun.Completed.exists_manifest {r : FileRun} (h : r.Completed) :
    ∃ l, r.after.locate? r.settings.manifestPath = some l := by
  obtain ⟨st, st', -, hfinish, htree⟩ := h.exists_persisted
  obtain ⟨l, -, hl, -⟩ :=
    Tree.read?_eq_some_iff.mp (FileSettings.finished_of_finish hfinish).manifest
  exact ⟨l, htree ▸ hl⟩

/-- A run that completed lists what it wrote and what it kept. -/
theorem FileRun.Completed.mem_listedNames_iff {r : FileRun} (h : r.Completed) {name : String} :
    name ∈ listedNames r.settings.directory r.after ↔
      name ∈ (FileSettings.keptPaths r.report).filterMap Path.fileName? := by
  obtain ⟨l, hl⟩ := h.exists_manifest
  rw [listedNames_eq hl, h.mem_manifestNames_iff, List.mem_filterMap]

namespace Attempts

variable {directory : String} {format : OutputFormat} {start : List String} {a : Attempt}
  {earlier : List Attempt} {name path : String}

theorem forall_on (h : Attempts directory format start earlier) :
    ∀ a ∈ earlier, a.On directory format := by
  induction h with
  | first on _ _ => exact List.forall_mem_singleton.mpr on
  | next _ on _ ih => exact List.forall_mem_cons.mpr ⟨on, ih⟩

/-- When a run begins, the manifest lists what the runs before it recorded. -/
theorem mem_listedNames_iff (h : Attempts directory format start (a :: earlier)) :
    name ∈ listedNames directory a.before ↔ name ∈ recordedNames start earlier := by
  induction earlier generalizing a with
  | nil =>
    cases h with
    | first _ listed _ => rw [listed, recordedNames]
  | cons last earlier ih =>
    cases h with
    | next attempts _ manifest =>
      have hbefore : listedNames directory a.before = listedNames directory last.after := by
        rw [listedNames, manifest, listedNames]
      obtain ⟨made, rfl, -⟩ := attempts.forall_on last List.mem_cons_self
      rw [hbefore]
      cases last with
      | completed c => exact made.mem_listedNames_iff
      | stopped c =>
        rw [recordedNames, ← ih attempts]
        change name ∈ listedNames _ c.after ↔ name ∈ listedNames _ c.before
        rw [listedNames, made.manifest_eq, listedNames]

theorem plain_recordedNames (h : Attempts directory format start (a :: earlier)) :
    ∀ name ∈ recordedNames start earlier, Path.Plain name := by
  induction earlier generalizing a with
  | nil =>
    cases h with
    | first _ _ plain => exact plain
  | cons last earlier ih =>
    cases h with
    | next attempts _ _ =>
      cases last with
      | completed c =>
        intro name hname
        obtain ⟨path, -, hpath⟩ := List.mem_filterMap.mp hname
        exact Path.plain_of_fileName? hpath
      | stopped c => exact ih attempts

end Attempts

/-- What an attempt wrote are files of artifacts. -/
theorem Attempt.On.exists_of_mem_written {directory : String} {format : OutputFormat} {w : Attempt}
    (h : w.On directory format) {path : String} (hpath : path ∈ w.written) :
    ∃ a : Artifact, path = Path.join directory (fileOf format a) := by
  obtain ⟨made, rfl, rfl⟩ := h
  cases w with
  | completed r =>
    rw [Attempt.written, made.written_eq] at hpath
    obtain ⟨a, -, rfl⟩ := List.mem_map.mp hpath
    exact ⟨a, rfl⟩
  | stopped r =>
    obtain ⟨a, -, rfl⟩ := made.exists_of_mem_written hpath
    exact ⟨a, rfl⟩

/-- The manifest of a run that completed was read in its place if there was a
file in the directory before. -/
theorem FileRun.Completed.listedNames_before {r : FileRun} (h : r.Completed) {name : String}
    (hname : Path.Plain name) (hdirectory : r.settings.directory ≠ "")
    (hfile : r.before.isFile (Path.join r.settings.directory name) = true) :
    listedNames r.settings.directory r.before = r.settings.manifestNames r.before := by
  obtain ⟨l, hl⟩ := h.exists_manifest
  rw [Tree.locate?_eq_some_iff, Tree.way_eq_toPlace_iff] at hl
  obtain ⟨k, hk, -⟩ := Tree.isFile_iff.mp hfile
  obtain ⟨k', hk'⟩ :=
    Tree.locate?_sibling hname hdirectory hk plain_manifestName hl.1 (by decide)
  exact listedNames_eq hk'

/-! ## 4. What the next run reports -/

/-- Of the files that attempts wrote, that are still there and that the next
completed run does not write, this run reports those as stale that are recorded;
and none if the output directory is the empty path. -/
theorem stale_iff_recorded (directory : String) (format : OutputFormat) (start : List String)
    (r : FileRun) (earlier : List Attempt)
    (hattempts : Attempts directory format start (.completed r :: earlier))
    (w : Attempt) (hw : w ∈ earlier) (path : String) (hwritten : path ∈ w.written)
    (hfile : r.before.isFile path = true) (hunwritten : path ∉ r.report.written) :
    path ∈ r.report.stale ↔ directory ≠ "" ∧
      ∃ name ∈ recordedNames start earlier, Path.fileName? path = some name := by
  have hon := hattempts.forall_on
  obtain ⟨a, rfl⟩ := (hon w (List.mem_cons_of_mem _ hw)).exists_of_mem_written hwritten
  have hname := plain_fileOf format a
  have completed : r.Completed := (hon _ List.mem_cons_self).made
  obtain rfl : r.settings.directory = directory := (hon _ List.mem_cons_self).directory_eq
  obtain rfl : r.settings.format = format := (hon _ List.mem_cons_self).format_eq
  by_cases hdirectory : r.settings.directory = ""
  · refine iff_of_false (fun hstale => ?_) (fun h => h.1 hdirectory)
    obtain ⟨st, -, -, -, hpaths⟩ := completed.exists_finish
    rw [hpaths] at hstale
    obtain ⟨n, hn, -⟩ := List.mem_map.mp hstale
    exact (FileSettings.isStale_of_mem_staleNames hn).1 hdirectory
  · have hlisted := completed.listedNames_before hname hdirectory hfile
    have hrecorded : ∀ name, name ∈ r.settings.manifestNames r.before ↔
        name ∈ recordedNames start earlier := by
      intro name
      rw [← hlisted]
      exact hattempts.mem_listedNames_iff
    have hfound : ∀ name ∈ r.settings.manifestNames r.before, Path.Plain name :=
      fun name h => hattempts.plain_recordedNames name ((hrecorded name).mp h)
    rw [completed.mem_stale_iff hfound hname hfile hunwritten, hrecorded, nameExtension?_fileOf,
      Path.fileName?_join hname]
    constructor
    · rintro ⟨hdirectory, hmem, -⟩
      exact ⟨hdirectory, _, hmem, rfl⟩
    · rintro ⟨hdirectory, name, hmem, heq⟩
      cases heq
      exact ⟨hdirectory, hmem, rfl⟩

/-! ## 5. A file that cannot be written -/

/-- What a sink with these settings does to these files, up to the artifact at
which it stops. -/
def StoppedRun.of (s : FileSettings) (artifacts : List Artifact) (t : Tree) : StoppedRun where
  settings := s
  artifacts := artifacts
  before := t
  after := (s.sink.persistAll artifacts ⟨t, s.manifestNames t, []⟩).2.tree
  written := (s.sink.persistAll artifacts ⟨t, s.manifestNames t, []⟩).2.written

theorem StoppedRun.stopped_of {s : FileSettings} {artifacts : List Artifact} {t : Tree}
    (hstart : (s.start t).isOk = true)
    (hpersist : (s.sink.persistAll artifacts ⟨t, s.manifestNames t, []⟩).1.isOk = false) :
    (StoppedRun.of s artifacts t).Stopped := by
  unfold Stopped StoppedRun.of
  rcases hrun : s.sink.persistAll artifacts ⟨t, s.manifestNames t, []⟩ with ⟨f | ⟨⟩, st'⟩
  · cases hst : s.start t with
    | error g =>
      rw [hst] at hstart
      cases hstart
    | ok st =>
      refine ⟨st, st', f, rfl, ?_, rfl, rfl⟩
      rw [start_eq_ok hst]
      exact hrun
  · rw [hrun] at hpersist
    cases hpersist

/-- Somebody keeps a file of their own where a table belongs. -/
def withOrdersKept (t : Tree) : Tree :=
  ((t.create "definitions/orders.sqlx" "SELECT 0").protect? "definitions/orders.sqlx").getD t

/-- A run that writes one table and stops at the next. -/
def brokenOff (t : Tree) : StoppedRun :=
  .of ⟨"definitions", .sqlx, false⟩ [customerTable, ordersTable] (withOrdersKept t)

def productTable : Artifact := bareTable ⟨"product", by decide, by decide⟩ "SELECT 3"

/-- The run after it, which writes neither. -/
def runAfter (t : Tree) : FileRun :=
  .of ⟨"definitions", .sqlx, false⟩ [productTable] (brokenOff t).after

section
variable (t : Tree)

/-- The one run stops after its first file, and the other one goes through and
leaves that file. -/
def BreaksOff : Prop :=
  ((brokenOff t).settings.start (brokenOff t).before).isOk = true ∧
  ((brokenOff t).settings.sink.persistAll (brokenOff t).artifacts
    ⟨(brokenOff t).before, (brokenOff t).settings.manifestNames (brokenOff t).before, []⟩).1.isOk =
      false ∧
  ((runAfter t).settings.run (runAfter t).artifacts (runAfter t).before).1.isOk = true ∧
  "definitions/customer.sqlx" ∈ (brokenOff t).written ∧
  (runAfter t).before.isFile "definitions/customer.sqlx" = true ∧
  "definitions/customer.sqlx" ∉ (runAfter t).report.written

instance : Decidable (BreaksOff t) := inferInstanceAs (Decidable (_ ∧ _ ∧ _ ∧ _ ∧ _ ∧ _))

variable {t} (h : BreaksOff t)
include h

theorem BreaksOff.on_brokenOff : (Attempt.stopped (brokenOff t)).On "definitions" .sqlx :=
  ⟨StoppedRun.stopped_of h.1 h.2.1, rfl, rfl⟩

theorem BreaksOff.attempts {start : List String} {earlier : List Attempt}
    (hearlier : Attempts "definitions" .sqlx start (.stopped (brokenOff t) :: earlier)) :
    Attempts "definitions" .sqlx start
      (.completed (runAfter t) :: .stopped (brokenOff t) :: earlier) :=
  .next hearlier ⟨FileRun.completed_of h.2.2.1, rfl, rfl⟩ rfl

theorem BreaksOff.written :
    "definitions/customer.sqlx" ∈ (Attempt.stopped (brokenOff t)).written :=
  h.2.2.2.1

theorem BreaksOff.leaves : (runAfter t).before.isFile "definitions/customer.sqlx" = true ∧
    "definitions/customer.sqlx" ∉ (runAfter t).report.written :=
  h.2.2.2.2

end

/-- What was recorded before is reported: the file that a completed run had
written, and the stopped one wrote again. -/
theorem stale_iff_recorded_before :
    "definitions/customer.sqlx" ∈ (runAfter (firstRun "definitions").after).report.stale := by
  have hfirst : ((firstRun "definitions").settings.run
      (firstRun "definitions").artifacts .empty).1.isOk = true := by decide +kernel
  have hlisted : listedNames "definitions" (Attempt.completed (firstRun "definitions")).before =
      [] := by decide +kernel
  have hkept : (Attempt.stopped (brokenOff (firstRun "definitions").after)).before.content?
      (manifestPlace "definitions") = (Attempt.completed (firstRun "definitions")).after.content?
        (manifestPlace "definitions") := by decide +kernel
  have hrecorded : "customer.sqlx" ∈ recordedNames []
      [.stopped (brokenOff (firstRun "definitions").after),
        .completed (firstRun "definitions")] := by decide +kernel
  have hbreaks : BreaksOff (firstRun "definitions").after := by decide +kernel
  have hattempts := hbreaks.attempts (.next
    (.first ⟨FileRun.completed_of hfirst, rfl, rfl⟩ hlisted nofun) hbreaks.on_brokenOff hkept)
  exact (stale_iff_recorded "definitions" .sqlx [] (runAfter (firstRun "definitions").after)
    [.stopped (brokenOff (firstRun "definitions").after), .completed (firstRun "definitions")]
    hattempts (.stopped (brokenOff (firstRun "definitions").after)) List.mem_cons_self
    "definitions/customer.sqlx" hbreaks.written hbreaks.leaves.1 hbreaks.leaves.2).mpr
      ⟨by decide, "customer.sqlx", hrecorded, by decide⟩

/-- An attempt created a file. It is there when the next run begins, which
completes, does not write it and does not report it. -/
structure Unreported (directory : String) (format : OutputFormat) (w : Attempt) (r : FileRun)
    (path : String) : Prop where
  attempts : Attempts directory format [] [.completed r, w]
  created : path ∈ w.written
  isFile : r.before.isFile path = true
  notWritten : path ∉ r.report.written
  notStale : path ∉ r.report.stale

/-- A file that only a stopped run wrote is not reported. -/
theorem unreported_after_stop :
    Unreported "definitions" .sqlx (.stopped (brokenOff .empty)) (runAfter .empty)
      "definitions/customer.sqlx" := by
  have hlisted : listedNames "definitions" (Attempt.stopped (brokenOff .empty)).before = [] := by
    decide +kernel
  have hbreaks : BreaksOff .empty := by decide +kernel
  have hstale : "definitions/customer.sqlx" ∉ (runAfter .empty).report.stale := by decide +kernel
  exact ⟨hbreaks.attempts (.first hbreaks.on_brokenOff hlisted nofun), hbreaks.written,
    hbreaks.leaves.1, hbreaks.leaves.2, hstale⟩

end DataVault.Output
