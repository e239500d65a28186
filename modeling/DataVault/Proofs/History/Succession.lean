/-
DataVault.Proofs.History.Succession — the versions of a key follow one
another.

A history that starts empty and is merged into again and again keeps one
shape for each key, whatever the snapshots, their times and their encodings
are, and whichever of the merges fail: each version was closed at the time
at which the next one starts, and the last version is the current one.
`Succession` builds such lists of versions the way merges do, by a first
version or by closing the last one and adding another.

A merge adds at most one version of a key (`Plan.history_result`), and it
closes the last one exactly when it adds one behind it, which is
`Plan.successive`. A merge that fails changes nothing. So the shape holds
after every sequence of merges (`successive_mergeEach`), and what it says
about current versions is read off it in `single_current_after_merges`.
-/
import DataVault.Proofs.History.Merging
import Mathlib.Data.List.Chain

namespace DataVault.History

open DataVault.Digest DataVault.Results

/-! ## 1. Versions that follow one another -/

/-- The versions of one key, the oldest first. -/
inductive Succession : List Version → Prop where
  | none : Succession []
  | first {v : Version} (hcurrent : v.isCurrent = true) (hopen : v.endsAt = Option.none) :
      Succession [v]
  /-- The last version is closed when another one starts. -/
  | next {past : List Version} {v w : Version} (h : Succession (past ++ [v]))
      (hcurrent : w.isCurrent = true) (hopen : w.endsAt = Option.none) :
      Succession (past ++ [v.close w.startsAt, w])

namespace Succession

variable {vs : List Version}

/-- A version is current exactly when it has no end. -/
theorem isCurrent_iff (h : Succession vs) :
    ∀ v ∈ vs, v.isCurrent = true ↔ v.endsAt = Option.none := by
  induction h with
  | none => simp
  | first hcurrent hopen => simp [hcurrent, hopen]
  | @next past v w h hcurrent hopen ih =>
    intro u hu
    rw [List.mem_append, List.mem_cons, List.mem_singleton] at hu
    rcases hu with hpast | rfl | rfl
    · exact ih u (List.mem_append_left _ hpast)
    · simp [Version.close]
    · simp [hcurrent, hopen]

/-- The last version is the only current one. -/
theorem exists_last (h : Succession vs) (hne : vs ≠ []) :
    ∃ past v, vs = past ++ [v] ∧ v.isCurrent = true ∧ ∀ u ∈ past, u.isCurrent = false := by
  induction h with
  | none => exact absurd rfl hne
  | @first v hcurrent hopen => exact ⟨[], v, rfl, hcurrent, by simp⟩
  | @next past v w h hcurrent hopen ih =>
    obtain ⟨past', v', hsplit, -, hclosed⟩ := ih (by simp)
    obtain ⟨rfl, -⟩ := List.append_inj' hsplit rfl
    refine ⟨past ++ [v.close w.startsAt], w, by simp, hcurrent, ?_⟩
    intro u hu
    rcases List.mem_append.mp hu with hpast | hlast
    · exact hclosed u hpast
    · rw [List.mem_singleton.mp hlast]
      rfl

/-- Each version ends when the next one starts. -/
theorem isChain (h : Succession vs) :
    vs.IsChain fun a b => a.endsAt = some b.startsAt := by
  induction h with
  | none => exact List.IsChain.nil
  | first hcurrent hopen => exact List.IsChain.singleton _
  | @next past v w h hcurrent hopen ih =>
    obtain ⟨hpast, -, hlink⟩ := List.isChain_append.mp ih
    refine List.isChain_append.mpr ⟨hpast, ?_, ?_⟩
    · rw [List.isChain_pair]
      rfl
    · -- Closing a version leaves the time at which it starts.
      simpa [Version.close] using hlink

end Succession

/-! ## 2. Histories -/

/-- The versions of every key follow one another. -/
def Table.Successive (t : Table) : Prop := ∀ hashKey, Succession (t.history hashKey)

theorem successive_empty (keyCount attributeCount : Nat) :
    (Table.empty keyCount attributeCount).Successive := fun _ => .none

theorem Table.currents_eq_filter (t : Table) (hashKey : String) :
    t.currents hashKey = (t.history hashKey).filter Version.isCurrent := by
  unfold Table.currents Table.history
  rw [List.filter_filter]
  rfl

namespace Table.Successive

variable {t : Table} (h : t.Successive) {hashKey : String}
include h

/-- A key with a version has its last one as the only current one. -/
theorem exists_last (hne : t.history hashKey ≠ []) :
    ∃ past v, t.history hashKey = past ++ [v] ∧ t.currents hashKey = [v] := by
  obtain ⟨past, v, hsplit, hcurrent, hclosed⟩ := (h hashKey).exists_last hne
  refine ⟨past, v, hsplit, ?_⟩
  have hnone : past.filter Version.isCurrent = [] :=
    List.filter_eq_nil_iff.mpr fun u hu => by simp [hclosed u hu]
  rw [t.currents_eq_filter, hsplit, List.filter_append, hnone,
    List.filter_cons_of_pos hcurrent]
  rfl

theorem history_eq_nil (hnone : t.current? hashKey = none) : t.history hashKey = [] := by
  by_contra hne
  obtain ⟨_, v, -, hcurrents⟩ := h.exists_last hne
  rw [t.current?_eq_head?, hcurrents] at hnone
  cases hnone

theorem singleCurrent : t.SingleCurrent := by
  intro hashKey
  rw [t.currentCount_eq_length]
  by_cases hne : t.history hashKey = []
  · rw [t.currents_eq_filter, hne]
    exact Nat.zero_le 1
  · obtain ⟨_, v, -, hcurrents⟩ := h.exists_last hne
    rw [hcurrents]
    exact le_refl 1

end Table.Successive

/-! ## 3. One merge -/

/-- Of versions with a replaced key, the last one is closed, and those before
it have been closed already. -/
theorem map_settle_last {now : Int} {replaced : List String} {past : List Version}
    {last : Version} (hkey : last.hashKey ∈ replaced) (hlast : last.isCurrent = true)
    (hclosed : ∀ v ∈ past, v.isCurrent = false) :
    (past ++ [last]).map (Version.settle now replaced) = past ++ [last.close now] := by
  have hpast : ∀ v ∈ past, v.settle now replaced = v := by
    intro v hv
    simp [Version.settle, hclosed v hv]
  have hend : last.settle now replaced = last.close now := if_pos ⟨hlast, hkey⟩
  rw [List.map_append, List.map_congr_left hpast, List.map_id', List.map_singleton, hend]

namespace Plan

variable {t : Table} {encoding : KeyEncoding} {snapshot : List SnapshotRow}

/-- The versions of a key after the plan: those from before, settled, and
behind them the one that is written for the key. -/
theorem history_result (plan : Plan t encoding snapshot) (now : Int) (hashKey : String) :
    (plan.result now).history hashKey =
      (t.history hashKey).map (Version.settle now (replacedKeys plan.changes)) ++
        writtenVersions now (plan.changes.filter fun c => c.1.hashKey = hashKey) := by
  unfold Table.history result
  rw [List.filter_append, List.filter_map]
  congr 1
  · congr 1
    refine List.filter_congr fun v _ => ?_
    rw [Function.comp_apply, Version.settle_hashKey]
  · unfold writtenVersions
    rw [List.filter_map, List.filter_filter, List.filter_filter]
    congr 1
    refine List.filter_congr fun c _ => ?_
    rw [Bool.eq_iff_iff]
    simp [Version.ofStaged, and_comm]

/-- A key that is not replaced keeps its versions as they are. -/
theorem map_settle_history (plan : Plan t encoding snapshot) (now : Int) {hashKey : String}
    (h : hashKey ∉ replacedKeys plan.changes) :
    (t.history hashKey).map (Version.settle now (replacedKeys plan.changes)) =
      t.history hashKey := by
  refine (List.map_congr_left fun v hv => ?_).trans (List.map_id _)
  have hkey : v.hashKey = hashKey := eq_of_beq (List.mem_filter.mp hv).2
  exact Version.settle_of_not_mem (hkey ▸ h)

theorem history_of_unchanged (plan : Plan t encoding snapshot) (now : Int) {hashKey : String}
    (h : ∀ c ∈ plan.changes, c.1.hashKey ≠ hashKey) :
    (plan.result now).history hashKey = t.history hashKey := by
  have hnone : plan.changes.filter (fun c => c.1.hashKey = hashKey) = [] :=
    List.filter_eq_nil_iff.mpr fun c hc => by simpa using h c hc
  have hkept : hashKey ∉ replacedKeys plan.changes := by
    intro hmem
    obtain ⟨c, hc, -, hkey⟩ := mem_replacedKeys.mp hmem
    exact h c hc hkey
  rw [plan.history_result, plan.map_settle_history now hkept, hnone]
  exact List.append_nil _

/-- A plan adds a version behind the last one of a key, and closes that one. -/
theorem successive (plan : Plan t encoding snapshot) (now : Int) (h : t.Successive) :
    (plan.result now).Successive := by
  intro hashKey
  by_cases hchanged : ∃ c ∈ plan.changes, c.1.hashKey = hashKey
  · obtain ⟨c, hc, rfl⟩ := hchanged
    have hreplaced := hashKey_mem_replacedKeys plan.distinct hc
    rw [plan.history_result, filter_hashKey plan.distinct hc]
    obtain ⟨s, effect⟩ := c
    cases plan.fits _ hc with
    | insert hnone =>
      rw [h.history_eq_nil hnone]
      exact .first rfl rfl
    | keep hcurrent hdigest =>
      have hkept : s.hashKey ∉ replacedKeys plan.changes := fun hmem => by
        cases hreplaced.mp hmem
      rw [plan.map_settle_history now hkept]
      simpa [writtenVersions] using h s.hashKey
    | @replace v hcurrent digest hdigest hne =>
      have hversions : t.history s.hashKey ≠ [] := by
        intro hnil
        rw [t.current?_eq_head?, t.currents_eq_filter, hnil] at hcurrent
        cases hcurrent
      obtain ⟨past, last, hsplit, hlast, hclosed⟩ := (h s.hashKey).exists_last hversions
      have hkey : ∀ u ∈ t.history s.hashKey, u.hashKey = s.hashKey :=
        fun u hu => eq_of_beq (List.mem_filter.mp hu).2
      rw [hsplit] at hkey
      have hmem : last.hashKey ∈ replacedKeys plan.changes := by
        rw [hkey last (by simp)]
        exact hreplaced.mpr rfl
      rw [hsplit, map_settle_last hmem hlast hclosed]
      have hnext : Succession (past ++
          [last.close (Version.ofStaged now s).startsAt, .ofStaged now s]) :=
        .next (hsplit ▸ h s.hashKey) rfl rfl
      simpa [writtenVersions, Version.ofStaged] using hnext
  · rw [plan.history_of_unchanged now fun c hc hkey => hchanged ⟨c, hc, hkey⟩]
    exact h hashKey

end Plan

/-! ## 4. Any sequence of merges -/

/-- A snapshot that is to be merged, with the encoding that digests it. -/
structure Attempt where
  encoding : KeyEncoding
  load : Load

/-- The history after a merge, which is as it was if the merge fails. -/
def Table.mergeOrKeep (t : Table) (attempt : Attempt) : Table :=
  match t.merge attempt.encoding attempt.load.time attempt.load.rows with
  | .ok (merged, _) => merged
  | .error _ => t

/-- The history after one merge and then the next, whichever of them fail. -/
def Table.mergeEach (t : Table) (attempts : List Attempt) : Table :=
  attempts.foldl Table.mergeOrKeep t

theorem Table.Successive.mergeOrKeep {t : Table} (h : t.Successive) (attempt : Attempt) :
    (t.mergeOrKeep attempt).Successive := by
  unfold Table.mergeOrKeep
  split
  · next merged summary hmerge =>
    obtain ⟨plan, rfl, -⟩ := Table.merge_eq_ok_iff.mp hmerge
    rw [plan.foldl_eq_result _ h.singleCurrent]
    exact plan.successive _ h
  · exact h

theorem successive_mergeEach {t : Table} (h : t.Successive) (attempts : List Attempt) :
    (t.mergeEach attempts).Successive := by
  induction attempts generalizing t with
  | nil => exact h
  | cons attempt attempts ih => exact ih (h.mergeOrKeep attempt)

/-! ## 5. Current versions -/

/-- What can be told about the current versions of a history. -/
structure Table.Orderly (t : Table) : Prop where
  check : t.checkSingleCurrent = .ok ()
  single : ∀ hashKey, t.currentCount hashKey ≤ 1
  isCurrent_iff : ∀ v ∈ t.versions, v.isCurrent = true ↔ v.endsAt = none
  /-- A key with versions has one current version, the last of its history. -/
  last : ∀ hashKey, t.history hashKey ≠ [] →
    t.currentCount hashKey = 1 ∧
      ∃ v, t.current? hashKey = some v ∧ (t.history hashKey).getLast? = some v
  state_ne : ∀ hashKey, t.state hashKey ≠ .superseded
  /-- Each version of a key ends when its next one starts. -/
  contiguous : ∀ hashKey, (t.history hashKey).IsChain fun a b => a.endsAt = some b.startsAt

theorem Table.SingleCurrent.check {t : Table} (h : t.SingleCurrent) :
    t.checkSingleCurrent = .ok () := by
  have hnone : t.versions.find? (fun v => t.currentCount v.hashKey > 1) = none := by
    rw [List.find?_eq_none]
    intro v _
    have := h v.hashKey
    simpa using this
  unfold Table.checkSingleCurrent
  rw [hnone]

theorem Table.Successive.orderly {t : Table} (h : t.Successive) : t.Orderly where
  check := h.singleCurrent.check
  single := h.singleCurrent
  isCurrent_iff v hv := (h v.hashKey).isCurrent_iff v (List.mem_filter.mpr ⟨hv, by simp⟩)
  last hashKey hne := by
    obtain ⟨past, v, hsplit, hcurrents⟩ := h.exists_last hne
    refine ⟨?_, v, ?_, ?_⟩
    · rw [t.currentCount_eq_length, hcurrents]
      rfl
    · rw [t.current?_eq_head?, hcurrents]
      rfl
    · rw [hsplit, List.getLast?_concat]
  state_ne hashKey := by
    unfold Table.state
    split
    · simp
    · next hnone =>
      have hnil : t.history hashKey = [] := h.history_eq_nil (by simpa using hnone)
      have hany : t.versions.any (·.hashKey == hashKey) = false := by
        rw [List.any_eq_false]
        exact List.filter_eq_nil_iff.mp hnil
      simp [hany]
  contiguous hashKey := (h hashKey).isChain

/-- Whatever is merged into an empty history, at whatever times and under
whatever encodings, and whichever merges fail: no key has more than one
current version, a version is current exactly when it has no end, a key with
versions has its last one as the current one, and each version ends when the
next one starts. -/
theorem single_current_after_merges (keyCount attributeCount : Nat) (attempts : List Attempt) :
    ((Table.empty keyCount attributeCount).mergeEach attempts).Orderly :=
  (successive_mergeEach (successive_empty keyCount attributeCount) attempts).orderly

end DataVault.History
