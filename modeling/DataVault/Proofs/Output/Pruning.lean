/-
DataVault.Proofs.Output.Pruning — a run prunes only what an earlier run wrote.

A run prunes stale files, which are files that it found in the manifest and
did not write. The manifest of a run lists what the run wrote and what it
kept of the names that it found, so by induction on the runs every name in it
is that of a file that one of them wrote (`exists_wrote`). This holds in
whatever formats the runs write, and whatever others do to the directory in
between: a file of theirs is pruned only if it stands where a run wrote one.
Nothing else is lost when a run prunes (`isFile_after`).
-/
import DataVault.Proofs.Output.Tracking

namespace DataVault.Output

open DataVault.Artifact DataVault.Files

/-! ## 1. One run -/

namespace FileRun.Completed

variable {r : FileRun} {path name : String} (h : r.Completed)
include h

theorem pruned_sublist : r.report.pruned.Sublist r.report.stale := by
  obtain ⟨st, st', -, hfinish, -⟩ := h.exists_persisted
  exact (FileSettings.finished_of_finish hfinish).pruned

/-- A file is there when the run is over, unless it stands where the run pruned
one. -/
theorem isFile_after (hfile : r.before.isFile path = true) :
    r.after.isFile path = true ∨
      ∃ lost ∈ r.report.pruned, r.after.locate? lost = r.after.locate? path := by
  obtain ⟨st, st', hpersisted, hfinish, htree⟩ := h.exists_persisted
  rw [← htree]
  exact (FileSettings.finished_of_finish hfinish).isFile path (hpersisted.keeps.isFile hfile)

/-- A name in the manifest of the run is that of a file that it wrote, or stood
in the manifest that it found. -/
theorem mem_written_or_found
    (hfound : ∀ name ∈ r.settings.manifestNames r.before, Path.Plain name)
    (hname : name ∈ r.settings.manifestNames r.after) :
    Path.join r.settings.directory name ∈ r.report.written ∨
      name ∈ r.settings.manifestNames r.before := by
  obtain ⟨path, hpath, hfile⟩ := h.mem_manifestNames_iff.mp hname
  rcases List.mem_append.mp hpath with hwritten | hkept
  · exact .inl (h.eq_join_of_mem_written hwritten hfile ▸ hwritten)
  · obtain ⟨found, hmem, rfl, -⟩ := h.of_mem_stale hfound (List.mem_of_mem_filter hkept)
    rw [Path.fileName?_join (hfound found hmem)] at hfile
    cases hfile
    exact .inr hmem

end FileRun.Completed

/-! ## 2. Many runs -/

namespace Runs

variable {directory name : String} {r : FileRun} {earlier later : List FileRun}

/-- What came before a run is a sequence of runs too. -/
theorem of_append (h : Runs directory (later ++ r :: earlier)) : Runs directory (r :: earlier) := by
  induction later with
  | nil => exact h
  | cons last later ih =>
    obtain ⟨next, rest, hrest⟩ := List.exists_cons_of_ne_nil
      (List.append_ne_nil_of_right_ne_nil later (List.cons_ne_nil r earlier))
    rw [List.cons_append, hrest] at h
    exact ih (hrest ▸ h.found_eq.1)

/-- The names that a run finds are those of files that earlier runs wrote. -/
theorem exists_wrote (h : Runs directory (r :: earlier))
    (hname : name ∈ r.settings.manifestNames r.before) :
    ∃ w ∈ earlier, Path.join directory name ∈ w.report.written := by
  induction earlier generalizing r with
  | nil =>
    cases h with
    | first _ _ fresh =>
      unfold FileSettings.manifestNames at hname
      rw [Tree.read?_of_not_exists fresh] at hname
      cases hname
  | cons last earlier ih =>
    obtain ⟨hearlier, hfound⟩ := h.found_eq
    rw [hfound] at hname
    obtain ⟨hcompleted, hdirectory⟩ := hearlier.forall_mem last List.mem_cons_self
    rcases hcompleted.mem_written_or_found hearlier.plain_found hname with hwritten | hmem
    · exact ⟨last, List.mem_cons_self, hdirectory ▸ hwritten⟩
    · obtain ⟨w, hw, hwritten⟩ := ih hearlier hmem
      exact ⟨w, List.mem_cons_of_mem _ hw, hwritten⟩

end Runs

/-- A run of a sequence prunes only files that an earlier run wrote and that it
did not write itself, and takes away no other file. -/
theorem prunes_own (directory : String) (later earlier : List FileRun) (r : FileRun)
    (hruns : Runs directory (later ++ r :: earlier)) :
    (∀ path ∈ r.report.pruned,
      (∃ w ∈ earlier, path ∈ w.report.written) ∧ path ∉ r.report.written) ∧
    ∀ path, r.before.isFile path = true →
      r.after.isFile path = true ∨
        ∃ lost ∈ r.report.pruned, r.after.locate? lost = r.after.locate? path := by
  have hrun := hruns.of_append
  obtain ⟨hcompleted, hdirectory⟩ := hrun.forall_mem r List.mem_cons_self
  refine ⟨fun path hpath => ?_, fun path hfile => hcompleted.isFile_after hfile⟩
  obtain ⟨name, hname, rfl, hunwritten⟩ :=
    hcompleted.of_mem_stale hrun.plain_found (hcompleted.pruned_sublist.subset hpath)
  exact ⟨hdirectory ▸ hrun.exists_wrote hname, hunwritten⟩

/-! ## 3. A file of another hand -/

/-- What the first run left, and a file that somebody put beside it. -/
def handwrittenBeside : Tree :=
  (firstRun "definitions").after.create "definitions/handwritten.sqlx" "SELECT 3"

def pruningSettings : FileSettings := ⟨"definitions", .sqlx, true⟩

/-- A run that no longer writes the file of the first one. -/
def pruningRun : FileRun := .of pruningSettings [ordersTable] handwrittenBeside

/-- The file of the first run is pruned, and the other one stays. -/
theorem prunes_own_beside_another :
    (∃ w ∈ [firstRun "definitions"], "definitions/customer.sqlx" ∈ w.report.written) ∧
      "definitions/customer.sqlx" ∉ pruningRun.report.written ∧
        pruningRun.after.isFile "definitions/handwritten.sqlx" = true := by
  have hfirst : Tree.empty.exists? (firstRun "definitions").settings.manifestPath = false ∧
      ((firstRun "definitions").settings.run
        (firstRun "definitions").artifacts .empty).1.isOk = true := by decide +kernel
  have hsecond : (pruningSettings.run [ordersTable] handwrittenBeside).1.isOk = true ∧
      pruningRun.before.read? pruningRun.settings.manifestPath =
        (firstRun "definitions").after.read? (firstRun "definitions").settings.manifestPath ∧
      pruningRun.before.isFile "definitions/handwritten.sqlx" = true ∧
      pruningRun.report.pruned = ["definitions/customer.sqlx"] ∧
      pruningRun.after.locate? "definitions/customer.sqlx" ≠
        pruningRun.after.locate? "definitions/handwritten.sqlx" := by decide +kernel
  obtain ⟨hcompleted, hmanifest, hthere, hpruned, hplaces⟩ := hsecond
  have hruns : Runs "definitions" ([] ++ pruningRun :: [firstRun "definitions"]) :=
    .next (.first (FileRun.completed_of hfirst.2) rfl hfirst.1) (FileRun.completed_of hcompleted)
      rfl hmanifest
  obtain ⟨hown, hkept⟩ := prunes_own "definitions" [] [firstRun "definitions"] pruningRun hruns
  obtain ⟨hwrote, hunwritten⟩ := hown "definitions/customer.sqlx" (by rw [hpruned]; decide)
  refine ⟨hwrote, hunwritten, (hkept "definitions/handwritten.sqlx" hthere).resolve_right ?_⟩
  rw [hpruned]
  rintro ⟨lost, hlost, hplace⟩
  cases List.mem_singleton.mp hlost
  exact hplaces hplace

end DataVault.Output
