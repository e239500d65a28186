/-
DataVault.Proofs.History.Merging — what a merge does to a history.

`merge_eq_ok_iff` opens a successful merge into its plan: the digested rows,
and for each staged row what it does. `foldl_apply_eq` is the specification
of the writes that the other proofs use in place of `apply`: the current
versions of replaced keys are closed where they stand, and the new versions
follow in the order of staging. As long as no key has more than one current
version, that is `Plan.result`, and `Plan.singleCurrent` says that a merge
keeps this.

`mergeAll` runs one merge after another; `mergeAll_induction` is the
induction over such a run.
-/
import DataVault.Proofs.History.Staging
import DataVault.Proofs.Lists
import DataVault.Proofs.Results

namespace DataVault.History

open DataVault.Digest DataVault.Lists DataVault.Results

/-! ## 1. Digests -/

theorem Table.digestOf_eq_ok_iff {encoding : KeyEncoding} {values : List Value} {hash : String} :
    Table.digestOf encoding values = .ok hash ↔ encoding.digest values = .ok hash :=
  mapError_eq_ok_iff

theorem Table.checkRow_eq_ok_iff {t : Table} {row : SnapshotRow} :
    t.checkRow row = .ok () ↔
      row.key.length = t.keyCount ∧ row.attributes.length = t.attributeCount := by
  unfold Table.checkRow
  split
  · next h => simp [h]
  · next h =>
    split
    · next h' => simp [h']
    · next h' => simp_all

/-- A staged row carries a row of the right size with its digests. -/
structure Staged.StagedBy (s : Staged) (t : Table) (encoding : KeyEncoding) : Prop where
  keyLength : s.row.key.length = t.keyCount
  attributesLength : s.row.attributes.length = t.attributeCount
  hashKey : encoding.digest s.row.key = .ok s.hashKey
  hashDiff : encoding.digest s.row.attributes = .ok s.hashDiff

theorem Table.stageRow_eq_ok_iff {t : Table} {encoding : KeyEncoding} {row : SnapshotRow}
    {s : Staged} :
    t.stageRow encoding row = .ok s ↔ s.row = row ∧ s.StagedBy t encoding := by
  unfold Table.stageRow
  simp only [bind_eq_ok_iff, pure_eq_ok_iff, Table.digestOf_eq_ok_iff]
  constructor
  · rintro ⟨⟨⟩, hcheck, hashKey, hkey, hashDiff, hdiff, rfl⟩
    obtain ⟨hk, ha⟩ := Table.checkRow_eq_ok_iff.mp hcheck
    exact ⟨rfl, hk, ha, hkey, hdiff⟩
  · rintro ⟨rfl, h⟩
    have hcheck := Table.checkRow_eq_ok_iff.mpr ⟨h.keyLength, h.attributesLength⟩
    exact ⟨(), hcheck, s.hashKey, h.hashKey, s.hashDiff, h.hashDiff, rfl⟩

theorem Table.mapM_stageRow_eq_ok_iff {t : Table} {encoding : KeyEncoding}
    {snapshot : List SnapshotRow} {rows : List Staged} :
    snapshot.mapM (t.stageRow encoding) = .ok rows ↔
      rows.map Staged.row = snapshot ∧ ∀ s ∈ rows, s.StagedBy t encoding := by
  rw [mapM_eq_ok_iff]
  simp only [Table.stageRow_eq_ok_iff]
  induction rows generalizing snapshot with
  | nil => simp [eq_comm]
  | cons s rows ih =>
    rw [List.forall₂_cons_right_iff, List.map_cons, List.forall_mem_cons]
    constructor
    · rintro ⟨_, rest, ⟨rfl, hs⟩, hrest, rfl⟩
      obtain ⟨rfl, hall⟩ := ih.mp hrest
      exact ⟨rfl, hs, hall⟩
    · rintro ⟨rfl, hs, hall⟩
      exact ⟨s.row, rows.map Staged.row, ⟨rfl, hs⟩, ih.mpr ⟨rfl, hall⟩, rfl⟩

/-! ## 2. Effects -/

/-- The effect fits what the history holds for the key of a staged row. -/
inductive Fits (t : Table) (encoding : KeyEncoding) (s : Staged) : Effect → Prop where
  | insert (h : t.current? s.hashKey = none) : Fits t encoding s .insert
  | keep {v : Version} (h : t.current? s.hashKey = some v)
      (hdigest : encoding.digest v.attributes = .ok s.hashDiff) : Fits t encoding s .keep
  | replace {v : Version} (h : t.current? s.hashKey = some v) {digest : String}
      (hdigest : encoding.digest v.attributes = .ok digest) (hne : digest ≠ s.hashDiff) :
      Fits t encoding s .replace

theorem Table.effectOf_eq_ok_iff {t : Table} {encoding : KeyEncoding} {s : Staged} {e : Effect} :
    t.effectOf encoding s = .ok e ↔ Fits t encoding s e := by
  unfold Table.effectOf
  constructor
  · intro h
    cases hcurrent : t.current? s.hashKey with
    | none =>
      rw [hcurrent] at h
      cases h
      exact .insert hcurrent
    | some v =>
      simp only [hcurrent, bind_eq_ok_iff, pure_eq_ok_iff, Table.digestOf_eq_ok_iff] at h
      obtain ⟨digest, hdigest, rfl⟩ := h
      split
      · next hsame => exact .keep hcurrent (hsame ▸ hdigest)
      · next hne => exact .replace hcurrent hdigest hne
  · rintro (hcurrent | ⟨hcurrent, hdigest⟩ | ⟨hcurrent, hdigest, hne⟩)
    · rw [hcurrent]
    · simp only [hcurrent, bind_eq_ok_iff, pure_eq_ok_iff, Table.digestOf_eq_ok_iff]
      exact ⟨s.hashDiff, hdigest, if_pos rfl⟩
    · simp only [hcurrent, bind_eq_ok_iff, pure_eq_ok_iff, Table.digestOf_eq_ok_iff]
      exact ⟨_, hdigest, if_neg hne⟩

/-- If the key has a current version, its digest decides between keeping and
replacing it. -/
theorem Fits.of_current {t : Table} {encoding : KeyEncoding} {s : Staged} {effect : Effect}
    {v : Version} (h : Fits t encoding s effect) (hcurrent : t.current? s.hashKey = some v) :
    ∃ digest, encoding.digest v.attributes = .ok digest ∧
      effect = if digest = s.hashDiff then .keep else .replace := by
  cases h with
  | insert hnone =>
    rw [hnone] at hcurrent
    cases hcurrent
  | keep hother hdigest =>
    rw [hcurrent] at hother
    obtain rfl := Option.some.inj hother
    exact ⟨s.hashDiff, hdigest, (if_pos rfl).symm⟩
  | replace hother hdigest hne =>
    rw [hcurrent] at hother
    obtain rfl := Option.some.inj hother
    exact ⟨_, hdigest, (if_neg hne).symm⟩

/-! ## 3. Plans -/

/-- What a snapshot does to a history: its rows with their digests, and the
staged ones of them with their effects. -/
structure Plan (t : Table) (encoding : KeyEncoding) (snapshot : List SnapshotRow) where
  rows : List Staged
  changes : List (Staged × Effect)
  rows_eq : rows.map Staged.row = snapshot
  rows_staged : ∀ s ∈ rows, s.StagedBy t encoding
  changes_staged : changes.map Prod.fst = stagedOf rows
  fits : ∀ change ∈ changes, Fits t encoding change.1 change.2

/-- A snapshot is applied exactly when it has a plan. -/
theorem Table.merge_eq_ok_iff {t t' : Table} {encoding : KeyEncoding} {now : Int}
    {snapshot : List SnapshotRow} {summary : Summary} :
    t.merge encoding now snapshot = .ok (t', summary) ↔
      ∃ plan : Plan t encoding snapshot, plan.changes.foldl (Table.apply now) t = t' ∧
        .ofEffects (plan.changes.map Prod.snd) = summary := by
  unfold Table.merge
  simp only [bind_eq_ok_iff, pure_eq_ok_iff]
  constructor
  · rintro ⟨rows, hrows, effects, heffects, hresult⟩
    obtain ⟨ht, hsummary⟩ := Prod.mk.inj hresult
    obtain ⟨hrow, hstaged⟩ := Table.mapM_stageRow_eq_ok_iff.mp hrows
    have hfits := mapM_eq_ok_iff.mp heffects
    have hlength : (stagedOf rows).length = effects.length := hfits.length_eq
    refine ⟨⟨rows, (stagedOf rows).zip effects, hrow, hstaged,
      List.map_fst_zip hlength.le, ?_⟩, ht, ?_⟩
    · intro change hchange
      exact Table.effectOf_eq_ok_iff.mp ((List.forall₂_iff_zip.mp hfits).2 hchange)
    · rw [List.map_snd_zip hlength.ge]
      exact hsummary
  · rintro ⟨plan, rfl, rfl⟩
    have hrows := Table.mapM_stageRow_eq_ok_iff.mpr ⟨plan.rows_eq, plan.rows_staged⟩
    have heffects : (stagedOf plan.rows).mapM (t.effectOf encoding) =
        .ok (plan.changes.map Prod.snd) := by
      rw [mapM_eq_ok_iff, ← plan.changes_staged, List.forall₂_map_left_iff,
        List.forall₂_map_right_iff, List.forall₂_same]
      exact fun change hchange => Table.effectOf_eq_ok_iff.mpr (plan.fits change hchange)
    have hzip : (stagedOf plan.rows).zip (plan.changes.map Prod.snd) = plan.changes := by
      rw [← plan.changes_staged, List.zip_map']
      exact List.map_id _
    refine ⟨plan.rows, hrows, plan.changes.map Prod.snd, heffects, ?_⟩
    rw [hzip]

/-! ## 4. Current versions -/

/-- The current versions of a key. -/
def Table.currents (t : Table) (hashKey : String) : List Version :=
  t.versions.filter (Version.isCurrentOf hashKey)

/-- No key has more than one current version. -/
def Table.SingleCurrent (t : Table) : Prop := ∀ hashKey, t.currentCount hashKey ≤ 1

theorem Table.currentCount_eq_length (t : Table) (hashKey : String) :
    t.currentCount hashKey = (t.currents hashKey).length := List.countP_eq_length_filter

theorem Table.current?_eq_head? (t : Table) (hashKey : String) :
    t.current? hashKey = (t.currents hashKey).head? := List.head?_filter.symm

theorem Table.SingleCurrent.currents_eq {t : Table} (h : t.SingleCurrent) (hashKey : String) :
    t.currents hashKey = (t.current? hashKey).toList := by
  have hcount := h hashKey
  rw [t.currentCount_eq_length] at hcount
  rw [t.current?_eq_head?]
  match hcurrents : t.currents hashKey with
  | [] => rfl
  | [v] => rfl
  | v :: w :: rest => simp [hcurrents] at hcount

/-- The order of the versions does not matter to the current one. -/
theorem Table.SingleCurrent.filter_eq {t : Table} (h : t.SingleCurrent) {versions : List Version}
    (hperm : versions.Perm t.versions) (hashKey : String) :
    versions.filter (Version.isCurrentOf hashKey) = (t.current? hashKey).toList := by
  have hcurrent := hperm.filter (Version.isCurrentOf hashKey)
  have hkey := h.currents_eq hashKey
  unfold Table.currents at hkey
  rw [hkey] at hcurrent
  cases hfound : t.current? hashKey with
  | none =>
    rw [hfound] at hcurrent
    exact List.perm_nil.mp hcurrent
  | some v =>
    rw [hfound] at hcurrent
    exact List.perm_singleton.mp hcurrent

theorem singleCurrent_empty (keyCount attributeCount : Nat) :
    (Table.empty keyCount attributeCount).SingleCurrent := fun _ => Nat.zero_le 1

namespace Version

variable {now : Int} {replaced : List String} {v : Version} {hashKey : String}

theorem isCurrentOf_iff :
    v.isCurrentOf hashKey = true ↔ v.isCurrent = true ∧ v.hashKey = hashKey := by
  simp [isCurrentOf]

/-- The version after the current versions of some keys have been closed. -/
def settle (now : Int) (replaced : List String) (v : Version) : Version :=
  if v.isCurrent ∧ v.hashKey ∈ replaced then v.close now else v

@[simp] theorem settle_hashKey : (v.settle now replaced).hashKey = v.hashKey := by
  unfold settle; split <;> rfl

@[simp] theorem settle_attributes : (v.settle now replaced).attributes = v.attributes := by
  unfold settle; split <;> rfl

@[simp] theorem settle_startsAt : (v.settle now replaced).startsAt = v.startsAt := by
  unfold settle; split <;> rfl

theorem settle_nil : v.settle now [] = v := by simp [settle]

theorem settle_of_not_mem (h : v.hashKey ∉ replaced) : v.settle now replaced = v := by
  simp [settle, h]

/-- It does not matter in which order the keys are. -/
theorem settle_congr {a b : List String} (h : a.Perm b) : settle now a = settle now b := by
  funext v
  exact if_congr (and_congr_right fun _ => h.mem_iff) rfl rfl

/-- Closing some keys and then another one closes them all. -/
theorem settle_comp_settle (hashKey : String) :
    settle now replaced ∘ settle now [hashKey] = settle now (hashKey :: replaced) := by
  funext v
  unfold Function.comp settle
  by_cases hcurrent : v.isCurrent = true <;> by_cases hkey : v.hashKey = hashKey <;>
    simp [hcurrent, hkey, close]

/-- A version is current afterwards if it was and is not replaced. -/
theorem settle_isCurrentOf :
    (v.settle now replaced).isCurrentOf hashKey = true ↔
      v.isCurrentOf hashKey = true ∧ hashKey ∉ replaced := by
  rw [isCurrentOf_iff, isCurrentOf_iff, settle_hashKey]
  unfold settle
  split
  · next h =>
    constructor
    · intro hclosed
      exact absurd hclosed.1 (by simp [close])
    · rintro ⟨⟨-, rfl⟩, hnot⟩
      exact absurd h.2 hnot
  · next h =>
    constructor
    · rintro ⟨hcurrent, rfl⟩
      exact ⟨⟨hcurrent, rfl⟩, fun hmem => h ⟨hcurrent, hmem⟩⟩
    · exact And.left

end Version

/-- Keys that are replaced have no current version left, the others keep
theirs. -/
theorem filter_map_settle {now : Int} {replaced : List String} {hashKey : String}
    (vs : List Version) :
    (vs.map (Version.settle now replaced)).filter (Version.isCurrentOf hashKey) =
      if hashKey ∈ replaced then [] else vs.filter (Version.isCurrentOf hashKey) := by
  rw [List.filter_map]
  split
  · next hmem =>
    rw [List.map_eq_nil_iff, List.filter_eq_nil_iff]
    exact fun v _ hv => (Version.settle_isCurrentOf.mp hv).2 hmem
  · next hmem =>
    have hsame : vs.filter (Version.isCurrentOf hashKey ∘ Version.settle now replaced) =
        vs.filter (Version.isCurrentOf hashKey) := by
      refine List.filter_congr fun v _ => Bool.eq_iff_iff.mpr ?_
      rw [Function.comp_apply, Version.settle_isCurrentOf]
      exact and_iff_left hmem
    rw [hsame]
    refine (List.map_congr_left fun v hv => ?_).trans (List.map_id _)
    obtain ⟨-, rfl⟩ := Version.isCurrentOf_iff.mp (List.mem_filter.mp hv).2
    exact Version.settle_of_not_mem hmem

/-! ## 5. Writes -/

/-- The keys whose current version is replaced. -/
def replacedKeys (changes : List (Staged × Effect)) : List String :=
  (changes.filter fun c => c.2 = .replace).map fun c => c.1.hashKey

/-- The versions that are written anew. -/
def writtenVersions (now : Int) (changes : List (Staged × Effect)) : List Version :=
  (changes.filter fun c => c.2 ≠ .keep).map fun c => .ofStaged now c.1

theorem mem_replacedKeys {changes : List (Staged × Effect)} {hashKey : String} :
    hashKey ∈ replacedKeys changes ↔ ∃ c ∈ changes, c.2 = .replace ∧ c.1.hashKey = hashKey := by
  simp [replacedKeys, and_assoc]

theorem replacedKeys_cons (s : Staged) (effect : Effect) (rest : List (Staged × Effect)) :
    replacedKeys ((s, effect) :: rest) =
      if effect = .replace then s.hashKey :: replacedKeys rest else replacedKeys rest := by
  unfold replacedKeys
  split <;> simp [*]

theorem writtenVersions_cons (now : Int) (s : Staged) (effect : Effect)
    (rest : List (Staged × Effect)) :
    writtenVersions now ((s, effect) :: rest) =
      if effect = .keep then writtenVersions now rest
      else .ofStaged now s :: writtenVersions now rest := by
  unfold writtenVersions
  split <;> simp [*]

section
variable {changes : List (Staged × Effect)}
  (hdistinct : changes.Pairwise fun a b => a.1.hashKey ≠ b.1.hashKey) {c : Staged × Effect}
  (hc : c ∈ changes)
include hdistinct hc

/-- A key that is not changed twice has one change. -/
theorem filter_hashKey : changes.filter (fun d => d.1.hashKey = c.1.hashKey) = [c] := by
  refine filter_eq_singleton (hdistinct.imp fun hab ha hb => ?_) hc (by simp)
  exact hab ((of_decide_eq_true ha).trans (of_decide_eq_true hb).symm)

theorem change_unique {d : Staged × Effect} (hd : d ∈ changes)
    (h : d.1.hashKey = c.1.hashKey) : d = c := by
  have hmem : d ∈ changes.filter (fun d => d.1.hashKey = c.1.hashKey) :=
    List.mem_filter.mpr ⟨hd, by simpa using h⟩
  rwa [filter_hashKey hdistinct hc, List.mem_singleton] at hmem

theorem hashKey_mem_replacedKeys : c.1.hashKey ∈ replacedKeys changes ↔ c.2 = .replace := by
  rw [mem_replacedKeys]
  constructor
  · rintro ⟨d, hd, heffect, hkey⟩
    exact change_unique hdistinct hc hd hkey ▸ heffect
  · exact fun heffect => ⟨c, hc, heffect, rfl⟩

end

/-- Of a single current version, closing the first one closes all. -/
theorem closeCurrent_eq_map {now : Int} {hashKey : String} : ∀ {vs : List Version},
    (vs.filter (Version.isCurrentOf hashKey)).length ≤ 1 →
    closeCurrent now hashKey vs = vs.map (Version.settle now [hashKey])
  | [], _ => rfl
  | v :: vs, h => by
      by_cases hv : v.isCurrentOf hashKey = true
      · rw [List.filter_cons_of_pos hv, List.length_cons] at h
        have hnone : vs.filter (Version.isCurrentOf hashKey) = [] :=
          List.eq_nil_of_length_eq_zero (by omega)
        have hrest : ∀ w ∈ vs, w.settle now [hashKey] = w := by
          intro w hw
          have hnot := List.filter_eq_nil_iff.mp hnone w hw
          rw [Version.isCurrentOf_iff] at hnot
          simp [Version.settle, hnot]
        have hclose : v.settle now [hashKey] = v.close now :=
          if_pos (by simpa using Version.isCurrentOf_iff.mp hv)
        rw [closeCurrent, if_pos hv, List.map_cons, hclose, List.map_congr_left hrest,
          List.map_id']
      · rw [List.filter_cons_of_neg hv] at h
        have hkeep : v.settle now [hashKey] = v := by
          rw [Version.isCurrentOf_iff] at hv
          simp [Version.settle, hv]
        rw [closeCurrent, if_neg hv, List.map_cons, hkeep, closeCurrent_eq_map h]

/-- The versions after the current version of each key has been closed, one
key after the other. -/
def closeEach (now : Int) (keys : List String) (vs : List Version) : List Version :=
  keys.foldl (fun vs hashKey => closeCurrent now hashKey vs) vs

/-- A version that is not current for the key stays behind the others. -/
theorem closeCurrent_concat {now : Int} {hashKey : String} {w : Version}
    (hw : w.isCurrentOf hashKey = false) : ∀ vs : List Version,
    closeCurrent now hashKey (vs ++ [w]) = closeCurrent now hashKey vs ++ [w]
  | [] => by simp [closeCurrent, hw]
  | v :: vs => by
      rw [List.cons_append, closeCurrent, closeCurrent, closeCurrent_concat hw vs]
      split <;> rfl

theorem closeEach_concat {now : Int} {w : Version} : ∀ {keys : List String} {vs : List Version},
    (∀ hashKey ∈ keys, w.isCurrentOf hashKey = false) →
    closeEach now keys (vs ++ [w]) = closeEach now keys vs ++ [w]
  | [], _, _ => rfl
  | hashKey :: keys, vs, hw => by
      obtain ⟨hfirst, hrest⟩ := List.forall_mem_cons.mp hw
      unfold closeEach
      rw [List.foldl_cons, List.foldl_cons, closeCurrent_concat hfirst]
      exact closeEach_concat hrest

/-- Of single current versions, closing them one after the other closes
all. -/
theorem closeEach_eq_map {now : Int} : ∀ {keys : List String} {vs : List Version},
    (∀ hashKey ∈ keys, (vs.filter (Version.isCurrentOf hashKey)).length ≤ 1) →
    closeEach now keys vs = vs.map (Version.settle now keys)
  | [], vs, _ => (List.map_id'' (fun _ => Version.settle_nil) vs).symm
  | hashKey :: keys, vs, hsingle => by
      obtain ⟨hfirst, hrest⟩ := List.forall_mem_cons.mp hsingle
      unfold closeEach
      rw [List.foldl_cons, closeCurrent_eq_map hfirst]
      refine (closeEach_eq_map fun other hother => ?_).trans ?_
      · rw [filter_map_settle]
        split
        · exact Nat.zero_le 1
        · exact hrest other hother
      · rw [List.map_map, Version.settle_comp_settle]

/-- What a list of changes with different keys writes. -/
theorem foldl_apply_eq {now : Int} : ∀ {changes : List (Staged × Effect)} {t : Table},
    changes.Pairwise (fun a b => a.1.hashKey ≠ b.1.hashKey) →
    changes.foldl (Table.apply now) t =
      { t with versions :=
          closeEach now (replacedKeys changes) t.versions ++ writtenVersions now changes }
  | [], t, _ => by simp [replacedKeys, writtenVersions, closeEach]
  | (s, effect) :: rest, t, hdistinct => by
      obtain ⟨hother, hrest⟩ := List.pairwise_cons.mp hdistinct
      -- The new version belongs to none of the keys that follow.
      have hnew : ∀ hashKey ∈ replacedKeys rest,
          (Version.ofStaged now s).isCurrentOf hashKey = false := by
        intro hashKey hmem
        obtain ⟨c, hc, -, rfl⟩ := mem_replacedKeys.mp hmem
        simpa [Version.ofStaged, Version.isCurrentOf] using hother c hc
      rw [List.foldl_cons, foldl_apply_eq hrest]
      cases effect with
      | keep => simp [Table.apply, replacedKeys_cons, writtenVersions_cons]
      | insert =>
        simp [Table.apply, replacedKeys_cons, writtenVersions_cons, closeEach_concat hnew]
      | replace =>
        simp [Table.apply, replacedKeys_cons, writtenVersions_cons, closeEach_concat hnew]
        rfl

/-! ## 6. Applied plans -/

namespace Plan

variable {t : Table} {encoding : KeyEncoding} {snapshot : List SnapshotRow}

theorem stagedFrom (plan : Plan t encoding snapshot) :
    StagedFrom plan.rows (plan.changes.map Prod.fst) :=
  plan.changes_staged ▸ stagedFrom_stagedOf plan.rows

/-- No key is changed twice. -/
theorem distinct (plan : Plan t encoding snapshot) :
    plan.changes.Pairwise fun a b => a.1.hashKey ≠ b.1.hashKey := by
  have h := plan.stagedFrom.distinct
  unfold DistinctKeys at h
  rwa [List.pairwise_map] at h

/-- A change comes from a row of the snapshot. -/
theorem staged_mem (plan : Plan t encoding snapshot) {c : Staged × Effect}
    (hc : c ∈ plan.changes) : c.1 ∈ plan.rows :=
  plan.stagedFrom.mem c.1 (List.mem_map_of_mem hc)

theorem row_mem (plan : Plan t encoding snapshot) {s : Staged} (hs : s ∈ plan.rows) :
    s.row ∈ snapshot := by
  have hmem : s.row ∈ plan.rows.map Staged.row := List.mem_map_of_mem hs
  rwa [plan.rows_eq] at hmem

/-- The key of a row of the snapshot is changed by a row that comes no later
in the order of digests. -/
theorem exists_change (plan : Plan t encoding snapshot) {row : SnapshotRow} {hashKey : String}
    (hrow : row ∈ snapshot) (hkey : encoding.digest row.key = .ok hashKey) :
    ∃ c ∈ plan.changes, c.1.hashKey = hashKey ∧
      ∃ digest, encoding.digest row.attributes = .ok digest ∧ c.1.hashDiff ≤ digest := by
  have hmem := hrow
  rw [← plan.rows_eq] at hmem
  obtain ⟨s, hs, rfl⟩ := List.mem_map.mp hmem
  have hstagedBy := plan.rows_staged s hs
  have hsame : hashKey = s.hashKey := Except.ok.inj (hkey.symm.trans hstagedBy.hashKey)
  obtain ⟨_, hstaged, hstagedKey, hle⟩ := plan.stagedFrom.least s hs
  obtain ⟨c, hc, rfl⟩ := List.mem_map.mp hstaged
  exact ⟨c, hc, hstagedKey.trans hsame.symm, s.hashDiff, hstagedBy.hashDiff, hle⟩

/-- The history that the plan leads to. -/
def result (plan : Plan t encoding snapshot) (now : Int) : Table :=
  { t with versions :=
      t.versions.map (Version.settle now (replacedKeys plan.changes)) ++
        writtenVersions now plan.changes }

theorem foldl_eq_result (plan : Plan t encoding snapshot) (now : Int) (h : t.SingleCurrent) :
    plan.changes.foldl (Table.apply now) t = plan.result now := by
  rw [foldl_apply_eq plan.distinct, closeEach_eq_map, result]
  intro hashKey _
  have hcount := h hashKey
  rwa [t.currentCount_eq_length] at hcount

/-- The current versions of a key after the plan. -/
theorem currents_result (plan : Plan t encoding snapshot) (now : Int) (hashKey : String) :
    (plan.result now).currents hashKey =
      (if hashKey ∈ replacedKeys plan.changes then [] else t.currents hashKey) ++
        writtenVersions now (plan.changes.filter fun c => c.1.hashKey = hashKey) := by
  unfold Table.currents result
  rw [List.filter_append, filter_map_settle]
  congr 1
  unfold writtenVersions
  rw [List.filter_map, List.filter_filter, List.filter_filter]
  congr 1
  refine List.filter_congr fun c _ => ?_
  rw [Bool.eq_iff_iff]
  simp [Version.isCurrentOf, Version.ofStaged, and_comm]

/-- A key that is not in the snapshot keeps its current version. -/
theorem currents_of_unchanged (plan : Plan t encoding snapshot) (now : Int) {hashKey : String}
    (h : ∀ c ∈ plan.changes, c.1.hashKey ≠ hashKey) :
    (plan.result now).currents hashKey = t.currents hashKey := by
  have hnone : plan.changes.filter (fun c => c.1.hashKey = hashKey) = [] :=
    List.filter_eq_nil_iff.mpr fun c hc => by simpa using h c hc
  have hkept : hashKey ∉ replacedKeys plan.changes := by
    intro hmem
    obtain ⟨c, hc, -, hkey⟩ := mem_replacedKeys.mp hmem
    exact h c hc hkey
  rw [currents_result, hnone, if_neg hkept]
  exact List.append_nil _

/-- A key that is in the snapshot has its new version as the only current
one, unless its attributes are the same. -/
theorem currents_of_changed (plan : Plan t encoding snapshot) (now : Int) {c : Staged × Effect}
    (hc : c ∈ plan.changes) :
    (plan.result now).currents c.1.hashKey =
      if c.2 = .keep then t.currents c.1.hashKey else [.ofStaged now c.1] := by
  rw [currents_result, filter_hashKey plan.distinct hc]
  simp only [hashKey_mem_replacedKeys plan.distinct hc]
  obtain ⟨s, effect⟩ := c
  rw [writtenVersions_cons]
  cases plan.fits _ hc with
  | insert hnone =>
    have : t.currents s.hashKey = [] := by
      rw [t.current?_eq_head?] at hnone
      exact List.head?_eq_none_iff.mp hnone
    simp [this, writtenVersions]
  | keep => simp [writtenVersions]
  | replace => simp [writtenVersions]

/-- A key that is in the snapshot has one current version afterwards, and
its attributes have the digest of the staged row. -/
theorem exists_current_of_changed (plan : Plan t encoding snapshot) (now : Int)
    (h : t.SingleCurrent) {c : Staged × Effect} (hc : c ∈ plan.changes) :
    ∃ v, (plan.result now).currents c.1.hashKey = [v] ∧
      encoding.digest v.attributes = .ok c.1.hashDiff := by
  rw [plan.currents_of_changed now hc]
  by_cases hkeep : c.2 = .keep
  · have hfits := plan.fits c hc
    rw [hkeep] at hfits
    cases hfits with
    | keep hcurrent hdigest =>
      refine ⟨_, ?_, hdigest⟩
      rw [if_pos hkeep, h.currents_eq, hcurrent]
      rfl
  · exact ⟨.ofStaged now c.1, if_neg hkeep, (plan.rows_staged c.1 (plan.staged_mem hc)).hashDiff⟩

/-- A merge leaves at most one current version of each key. -/
theorem singleCurrent (plan : Plan t encoding snapshot) (now : Int) (h : t.SingleCurrent) :
    (plan.result now).SingleCurrent := by
  intro hashKey
  rw [Table.currentCount_eq_length]
  by_cases hchanged : ∃ c ∈ plan.changes, c.1.hashKey = hashKey
  · obtain ⟨c, hc, rfl⟩ := hchanged
    obtain ⟨v, hcurrents, -⟩ := plan.exists_current_of_changed now h hc
    rw [hcurrents]
    exact le_refl 1
  · rw [plan.currents_of_unchanged now fun c hc hkey => hchanged ⟨c, hc, hkey⟩,
      ← Table.currentCount_eq_length]
    exact h hashKey

end Plan

/-! ## 7. Runs -/

/-- A snapshot and the time at which it is loaded. -/
structure Load where
  time : Int
  rows : List SnapshotRow

/-- The history after one load and then the next. -/
def Table.mergeAll (t : Table) (encoding : KeyEncoding) (loads : List Load) :
    Except HistoryError Table :=
  loads.foldlM (fun t load => (t.merge encoding load.time load.rows).map Prod.fst) t

theorem Table.mergeAll_concat_eq_ok_iff {start t' : Table} {encoding : KeyEncoding}
    {loads : List Load} {load : Load} :
    start.mergeAll encoding (loads ++ [load]) = .ok t' ↔
      ∃ t summary, start.mergeAll encoding loads = .ok t ∧
        t.merge encoding load.time load.rows = .ok (t', summary) := by
  unfold Table.mergeAll
  simp only [List.foldlM_append, List.foldlM_cons, List.foldlM_nil, bind_eq_ok_iff,
    pure_eq_ok_iff, map_eq_ok_iff]
  constructor
  · rintro ⟨t, hrun, _, ⟨⟨_, summary⟩, hmerge, rfl⟩, rfl⟩
    exact ⟨t, summary, hrun, hmerge⟩
  · rintro ⟨t, summary, hrun, hmerge⟩
    exact ⟨t, hrun, t', ⟨(t', summary), hmerge, rfl⟩, rfl⟩

/-- What holds of a history and is kept by every plan holds after every run. -/
theorem mergeAll_induction {start : Table} {encoding : KeyEncoding} (hsingle : start.SingleCurrent)
    {P : List Load → Table → Prop} (hstart : P [] start)
    (hstep : ∀ (loads : List Load) (t : Table) (load : Load) (plan : Plan t encoding load.rows),
      t.SingleCurrent → P loads t → P (loads ++ [load]) (plan.result load.time)) :
    ∀ {loads : List Load} {t : Table}, start.mergeAll encoding loads = .ok t →
      t.SingleCurrent ∧ P loads t := by
  intro loads
  induction loads using List.reverseRecOn with
  | nil =>
    intro t h
    obtain rfl : start = t := pure_eq_ok_iff.mp h
    exact ⟨hsingle, hstart⟩
  | append_singleton loads load ih =>
    intro t' h
    obtain ⟨t, summary, hrun, hmerge⟩ := Table.mergeAll_concat_eq_ok_iff.mp h
    obtain ⟨ht, hP⟩ := ih hrun
    obtain ⟨plan, rfl, -⟩ := Table.merge_eq_ok_iff.mp hmerge
    rw [plan.foldl_eq_result load.time ht]
    exact ⟨plan.singleCurrent load.time ht, hstep loads t load plan ht hP⟩

end DataVault.History
