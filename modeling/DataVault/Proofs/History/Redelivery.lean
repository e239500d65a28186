/-
DataVault.Proofs.History.Redelivery — a load that comes again.

Whether a snapshot is accepted, and which digest it stages for a key, depends
on the set of its rows alone: not on their order, nor on how often a row is in
it. `nonempty_plan_iff` says the first, row by row, and `Plan.exists_matching`
the second, for the plans of two loads with the same rows.

After a load, the attributes of the current version of each of its keys have
the staged digest, whether the version was kept or is new. So the same rows,
loaded once more, find nothing to write (`Plan.keeps_again`).
-/
import DataVault.Proofs.History.Places
import DataVault.Proofs.History.Succession

namespace DataVault.History

open DataVault.Digest DataVault.Lists DataVault.Results

/-! ## 1. Accepted rows -/

/-- The row can be digested and has the sizes of the history, and so can the
current version of its key. -/
def Table.Accepts (t : Table) (encoding : KeyEncoding) (row : SnapshotRow) : Prop :=
  ∃ s : Staged, s.row = row ∧ s.StagedBy t encoding ∧
    ∀ v, t.current? s.hashKey = some v → ∃ digest, encoding.digest v.attributes = .ok digest

/-- A staged row has an effect if the current version of its key can be
digested. -/
theorem exists_fits_iff {t : Table} {encoding : KeyEncoding} {s : Staged} :
    (∃ effect, Fits t encoding s effect) ↔
      ∀ v, t.current? s.hashKey = some v → ∃ digest, encoding.digest v.attributes = .ok digest := by
  constructor
  · rintro ⟨effect, hfits⟩ v hcurrent
    obtain ⟨digest, hdigest, -⟩ := hfits.of_current hcurrent
    exact ⟨digest, hdigest⟩
  · intro h
    cases hcurrent : t.current? s.hashKey with
    | none => exact ⟨.insert, .insert hcurrent⟩
    | some v =>
      obtain ⟨digest, hdigest⟩ := h v hcurrent
      by_cases hsame : digest = s.hashDiff
      · exact ⟨.keep, .keep hcurrent (hsame ▸ hdigest)⟩
      · exact ⟨.replace, .replace hcurrent hdigest hsame⟩

/-- A snapshot has a plan exactly when each of its rows is accepted. -/
theorem nonempty_plan_iff {t : Table} {encoding : KeyEncoding} {snapshot : List SnapshotRow} :
    Nonempty (Plan t encoding snapshot) ↔ ∀ row ∈ snapshot, t.Accepts encoding row := by
  constructor
  · rintro ⟨plan⟩ row hrow
    rw [← plan.rows_eq] at hrow
    obtain ⟨s, hs, rfl⟩ := List.mem_map.mp hrow
    have hstagedBy := plan.rows_staged s hs
    obtain ⟨c, hc, hkey, -⟩ := plan.exists_change (plan.row_mem hs) hstagedBy.hashKey
    exact ⟨s, rfl, hstagedBy, hkey ▸ exists_fits_iff.mp ⟨c.2, plan.fits c hc⟩⟩
  · intro haccepts
    obtain ⟨rows, hrows, hstaged⟩ := exists_map_eq haccepts
    have heffects : ∀ s ∈ stagedOf rows,
        ∃ change : Staged × Effect, change.1 = s ∧ Fits t encoding change.1 change.2 := by
      intro s hs
      obtain ⟨effect, hfits⟩ :=
        exists_fits_iff.mpr (hstaged s ((stagedFrom_stagedOf rows).mem s hs)).2
      exact ⟨(s, effect), rfl, hfits⟩
    obtain ⟨changes, hchanges, hfits⟩ := exists_map_eq heffects
    exact ⟨⟨rows, changes, hrows, fun s hs => (hstaged s hs).1, hchanges, hfits⟩⟩

/-! ## 2. Loads with the same rows -/

/-- The loads have the same rows, in any order and any number. -/
def Load.SameRows (load again : Load) : Prop := ∀ row, row ∈ again.rows ↔ row ∈ load.rows

theorem Load.SameRows.symm {load again : Load} (h : load.SameRows again) :
    again.SameRows load := fun row => (h row).symm

theorem Load.SameRows.isLeast {load again : Load} (h : load.SameRows again)
    {encoding : KeyEncoding} {hashKey : String} {row : SnapshotRow}
    (hleast : load.IsLeast encoding hashKey row) : again.IsLeast encoding hashKey row := by
  obtain ⟨digest, hdigest, hle⟩ := hleast.least
  refine ⟨(h row).mpr hleast.mem, hleast.key, digest, hdigest, fun other hother => ?_⟩
  exact hle other ((h other).mp hother)

/-- The plans of such loads stage the same keys with the same digests, be it
for one history or for two. -/
theorem Plan.exists_matching {t u : Table} {encoding : KeyEncoding} {load again : Load}
    (plan : Plan t encoding load.rows) (other : Plan u encoding again.rows)
    (hsame : load.SameRows again) {c : Staged × Effect} (hc : c ∈ plan.changes) :
    ∃ d ∈ other.changes, d.1.hashKey = c.1.hashKey ∧ d.1.hashDiff = c.1.hashDiff := by
  have hleast := hsame.isLeast (plan.isLeast hc)
  obtain ⟨d, hd, hkey⟩ := other.contains_iff.mp ⟨c.1.row, hleast.mem, hleast.key⟩
  have hdigest := other.digest_of_isLeast hd (hkey.symm ▸ hleast)
  rw [(plan.rows_staged c.1 (plan.staged_mem hc)).hashDiff] at hdigest
  exact ⟨d, hd, hkey, (Except.ok.inj hdigest).symm⟩

/-! ## 3. The same rows once more -/

/-- Changes that keep everything write nothing. -/
theorem foldl_apply_keep {now : Int} {changes : List (Staged × Effect)} {t : Table}
    (h : ∀ c ∈ changes, c.2 = .keep) : changes.foldl (Table.apply now) t = t := by
  induction changes with
  | nil => rfl
  | cons c changes ih =>
    obtain ⟨s, effect⟩ := c
    obtain ⟨rfl, hrest⟩ := List.forall_mem_cons.mp h
    exact ih hrest

theorem Summary.ofEffects_keep {effects : List Effect} (h : ∀ effect ∈ effects, effect = .keep) :
    Summary.ofEffects effects = ⟨0, 0, effects.length⟩ := by
  rw [List.eq_replicate_of_mem h]
  simp [Summary.ofEffects, List.countP_replicate]

/-- Once a load is in, the same rows are all current. -/
theorem Plan.keeps_again {t : Table} {encoding : KeyEncoding} {load again : Load}
    (plan : Plan t encoding load.rows) (hsingle : t.SingleCurrent) (hsame : load.SameRows again)
    (other : Plan (plan.result load.time) encoding again.rows) :
    ∀ d ∈ other.changes, d.2 = .keep := by
  intro d hd
  obtain ⟨c, hc, hkey, hdiff⟩ := other.exists_matching plan hsame.symm hd
  obtain ⟨v, hcurrents, hdigest⟩ := plan.exists_current_of_changed load.time hsingle hc
  have hcurrent : (plan.result load.time).current? d.1.hashKey = some v := by
    rw [Table.current?_eq_head?, ← hkey, hcurrents]
    rfl
  obtain ⟨digest, hagain, heffect⟩ := (other.fits d hd).of_current hcurrent
  rw [hdigest] at hagain
  obtain rfl := Except.ok.inj hagain
  rwa [if_pos hdiff] at heffect

/-- The same rows have a plan once more. -/
theorem Plan.nonempty_again {t : Table} {encoding : KeyEncoding} {load again : Load}
    (plan : Plan t encoding load.rows) (hsingle : t.SingleCurrent)
    (hsame : load.SameRows again) :
    Nonempty (Plan (plan.result load.time) encoding again.rows) := by
  rw [nonempty_plan_iff]
  intro row hrow
  obtain ⟨s, rfl, hstagedBy, -⟩ := nonempty_plan_iff.mp ⟨plan⟩ row ((hsame row).mp hrow)
  refine ⟨s, rfl, ⟨hstagedBy.keyLength, hstagedBy.attributesLength, hstagedBy.hashKey,
    hstagedBy.hashDiff⟩, fun v hcurrent => ?_⟩
  obtain ⟨c, hc, hkey, -⟩ := plan.exists_change ((hsame s.row).mp hrow) hstagedBy.hashKey
  obtain ⟨w, hcurrents, hdigest⟩ := plan.exists_current_of_changed load.time hsingle hc
  rw [Table.current?_eq_head?, ← hkey, hcurrents] at hcurrent
  obtain rfl := Option.some.inj hcurrent
  exact ⟨_, hdigest⟩

/-- A load that has been merged can be delivered again, with its rows in any
order and any number and at any time: it is accepted, the history stays as it
is to the last field, and every key of the load is counted as unchanged. What
was merged before, under which encodings, and what failed does not matter. -/
theorem redelivery_writes_nothing (keyCount attributeCount : Nat) (attempts : List Attempt)
    (encoding : KeyEncoding) (load again : Load) (t : Table) (summary : Summary)
    (h : ((Table.empty keyCount attributeCount).mergeEach attempts).merge encoding load.time
      load.rows = .ok (t, summary))
    (hsame : ∀ row, row ∈ again.rows ↔ row ∈ load.rows) :
    t.merge encoding again.time again.rows =
      .ok (t, ⟨0, 0, (again.hashKeys encoding).length⟩) := by
  have hsingle := (successive_mergeEach (successive_empty keyCount attributeCount)
    attempts).singleCurrent
  obtain ⟨plan, rfl, -⟩ := Table.merge_eq_ok_iff.mp h
  rw [plan.foldl_eq_result load.time hsingle]
  obtain ⟨other⟩ := plan.nonempty_again hsingle hsame
  have hkeep := plan.keeps_again hsingle hsame other
  refine Table.merge_eq_ok_iff.mpr ⟨other, foldl_apply_keep hkeep, ?_⟩
  have heffects : ∀ effect ∈ other.changes.map Prod.snd, effect = .keep := by
    intro effect heffect
    obtain ⟨d, hd, rfl⟩ := List.mem_map.mp heffect
    exact hkeep d hd
  rw [Summary.ofEffects_keep heffects, List.length_map, ← other.hashKeys_perm.length_eq,
    List.length_map]

/-- The rows of `mixedLoad`, each of them twice, with an earlier time. -/
def repeatedLoad : Load := ⟨15, mixedLoad.rows.reverse ++ mixedLoad.rows⟩

theorem redelivery_writes_nothing_repeated :
    ∃ t summary, ((Table.empty 1 1).mergeEach (sampleLoads.map (.mk (.delimited "|")))).merge
        (.delimited "|") mixedLoad.time mixedLoad.rows = .ok (t, summary) ∧
      (∀ row, row ∈ repeatedLoad.rows ↔ row ∈ mixedLoad.rows) ∧
      t.merge (.delimited "|") repeatedLoad.time repeatedLoad.rows =
        .ok (t, ⟨0, 0, (repeatedLoad.hashKeys (.delimited "|")).length⟩) := by
  have hsummary : (((Table.empty 1 1).mergeEach (sampleLoads.map (.mk (.delimited "|")))).merge
      (.delimited "|") mixedLoad.time mixedLoad.rows).map Prod.snd = .ok ⟨3, 2, 0⟩ := by
    decide +kernel
  obtain ⟨⟨t, summary⟩, hmerge, -⟩ := map_eq_ok_iff.mp hsummary
  have hsame : ∀ row, row ∈ repeatedLoad.rows ↔ row ∈ mixedLoad.rows := by
    simp [repeatedLoad]
  exact ⟨t, summary, hmerge, hsame,
    redelivery_writes_nothing 1 1 _ _ mixedLoad repeatedLoad t summary hmerge hsame⟩

end DataVault.History
