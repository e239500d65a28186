/-
DataVault.Proofs.History.Places — what a merge writes, place by place.

Nothing is assumed of the history that a load is merged into: it may have
several current versions of a key, of which the first is the one that a merge
looks at. A merge keeps every version in its place. It closes the version at
a place exactly if that is the first current version of a key whose staged
row has another digest (`Outdated`), and it leaves all others as they are;
new versions come behind the old ones.

`getElem?_closeEach` says this of a list of keys that are closed one after
the other, and `Plan.outdated_iff` finds the places among the changes of a
plan. The counts of the summary are then those of the places.
-/
import DataVault.Proofs.History.AsOf
import Mathlib.Data.List.Dedup

namespace DataVault.History

open DataVault.Digest DataVault.Lists DataVault.Results

/-! ## 1. The place of a current version -/

/-- Where the first current version of a key stands. -/
def Table.currentPlace? (t : Table) (hashKey : String) : Option Nat :=
  t.versions.findIdx? (Version.isCurrentOf hashKey)

theorem Table.current?_eq_bind (t : Table) (hashKey : String) :
    t.current? hashKey = (t.currentPlace? hashKey).bind fun place => t.versions[place]? :=
  List.find?_eq_bind_findIdx?_getElem?

/-- The version at the place of a key is its current one. -/
theorem Table.exists_of_currentPlace? {t : Table} {hashKey : String} {place : Nat}
    (h : t.currentPlace? hashKey = some place) :
    ∃ v, t.versions[place]? = some v ∧ t.current? hashKey = some v ∧ v.isCurrent = true ∧
      v.hashKey = hashKey := by
  obtain ⟨hlt, hcurrent, -⟩ := List.findIdx?_eq_some_iff_getElem.mp h
  have hversion : t.versions[place]? = some t.versions[place] := List.getElem?_eq_getElem hlt
  refine ⟨t.versions[place], hversion, ?_, Version.isCurrentOf_iff.mp hcurrent⟩
  rw [t.current?_eq_bind, h, Option.bind_some, hversion]

theorem Table.exists_currentPlace? {t : Table} {hashKey : String} {v : Version}
    (h : t.current? hashKey = some v) : ∃ place, t.currentPlace? hashKey = some place := by
  rw [t.current?_eq_bind, Option.bind_eq_some_iff] at h
  obtain ⟨place, hplace, -⟩ := h
  exact ⟨place, hplace⟩

/-- Two keys do not share a place. -/
theorem Table.currentPlace?_inj {t : Table} {left right : String} {place : Nat}
    (hl : t.currentPlace? left = some place) (hr : t.currentPlace? right = some place) :
    left = right := by
  obtain ⟨v, hv, -, -, rfl⟩ := Table.exists_of_currentPlace? hl
  obtain ⟨w, hw, -, -, rfl⟩ := Table.exists_of_currentPlace? hr
  rw [hv] at hw
  rw [Option.some.inj hw]

/-! ## 2. Closing versions in place -/

theorem length_closeCurrent (now : Int) (hashKey : String) (vs : List Version) :
    (closeCurrent now hashKey vs).length = vs.length := by
  induction vs with
  | nil => rfl
  | cons v vs ih =>
    rw [closeCurrent]
    split <;> simp [ih]

/-- Closing the current version of a key changes the version at its place. -/
theorem getElem?_closeCurrent {now : Int} {hashKey : String} {vs : List Version} {place : Nat} :
    (closeCurrent now hashKey vs)[place]? =
      if vs.findIdx? (Version.isCurrentOf hashKey) = some place then
        vs[place]?.map (Version.close now)
      else vs[place]? := by
  induction vs generalizing place with
  | nil => simp [closeCurrent]
  | cons v vs ih =>
    rw [closeCurrent, List.findIdx?_cons]
    by_cases hv : v.isCurrentOf hashKey = true
    · cases place <;> simp [hv]
    · cases place <;> simp [hv, ih]

/-- It leaves the places of other keys. -/
theorem findIdx?_closeCurrent {now : Int} {hashKey other : String} (hne : other ≠ hashKey)
    (vs : List Version) :
    (closeCurrent now hashKey vs).findIdx? (Version.isCurrentOf other) =
      vs.findIdx? (Version.isCurrentOf other) := by
  induction vs with
  | nil => rfl
  | cons v vs ih =>
    rw [closeCurrent]
    by_cases hv : v.isCurrentOf hashKey = true
    · have hkey : v.hashKey ≠ other := fun h => hne (h.symm.trans (Version.isCurrentOf_iff.mp hv).2)
      have hold : ¬ v.isCurrentOf other = true := fun h => hkey (Version.isCurrentOf_iff.mp h).2
      have hclosed : ¬ (v.close now).isCurrentOf other = true := fun h =>
        hkey (Version.isCurrentOf_iff.mp h).2
      rw [if_pos hv, List.findIdx?_cons, List.findIdx?_cons, if_neg hold, if_neg hclosed]
    · rw [if_neg hv, List.findIdx?_cons, List.findIdx?_cons, ih]

theorem length_closeEach (now : Int) (keys : List String) (vs : List Version) :
    (closeEach now keys vs).length = vs.length := by
  induction keys generalizing vs with
  | nil => rfl
  | cons hashKey keys ih => exact (ih _).trans (length_closeCurrent now hashKey vs)

/-- Closing the current versions of different keys changes the versions at
their places. -/
theorem getElem?_closeEach {now : Int} {place : Nat} : ∀ {keys : List String} {vs : List Version},
    keys.Nodup →
    (closeEach now keys vs)[place]? =
      if ∃ hashKey ∈ keys, vs.findIdx? (Version.isCurrentOf hashKey) = some place then
        vs[place]?.map (Version.close now)
      else vs[place]?
  | [], vs, _ => by simp [closeEach]
  | hashKey :: keys, vs, hnodup => by
      obtain ⟨hnot, hrest⟩ := List.nodup_cons.mp hnodup
      have hplaces : (∃ other ∈ keys, (closeCurrent now hashKey vs).findIdx?
            (Version.isCurrentOf other) = some place) ↔
          ∃ other ∈ keys, vs.findIdx? (Version.isCurrentOf other) = some place := by
        refine exists_congr fun other => and_congr_right fun hother => ?_
        have hne : other ≠ hashKey := fun h => hnot (h ▸ hother)
        rw [findIdx?_closeCurrent hne]
      have hstep : closeEach now (hashKey :: keys) vs =
          closeEach now keys (closeCurrent now hashKey vs) := rfl
      rw [hstep, getElem?_closeEach hrest, getElem?_closeCurrent]
      simp only [hplaces, List.exists_mem_cons_iff]
      have hagain : Version.close now ∘ Version.close now = Version.close now := rfl
      by_cases hfirst : vs.findIdx? (Version.isCurrentOf hashKey) = some place <;>
        by_cases hlater : ∃ other ∈ keys, vs.findIdx? (Version.isCurrentOf other) = some place <;>
        simp [hfirst, hlater, hagain]

/-! ## 3. Outdated versions -/

/-- The different hash keys of a load. -/
def Load.hashKeys (load : Load) (encoding : KeyEncoding) : List String :=
  (load.rows.filterMap fun row => (encoding.digest row.key).toOption).dedup

theorem Load.mem_hashKeys {load : Load} {encoding : KeyEncoding} {hashKey : String} :
    hashKey ∈ load.hashKeys encoding ↔ load.Contains encoding hashKey := by
  unfold Load.hashKeys Load.Contains
  rw [List.mem_dedup, List.mem_filterMap]
  refine exists_congr fun row => and_congr_right fun _ => ?_
  cases encoding.digest row.key <;> simp [Except.toOption]

/-- The version at a place is the current one of its key, and the row that the
load stages for the key has another digest. -/
def Table.Outdated (t : Table) (encoding : KeyEncoding) (load : Load) (place : Nat) : Prop :=
  ∃ v row old new, t.versions[place]? = some v ∧ t.currentPlace? v.hashKey = some place ∧
    load.IsLeast encoding v.hashKey row ∧ encoding.digest v.attributes = .ok old ∧
    encoding.digest row.attributes = .ok new ∧ old ≠ new

/-- An outdated version is current, and the load has its key. -/
theorem Table.Outdated.of_getElem? {t : Table} {encoding : KeyEncoding} {load : Load}
    {place : Nat} {v : Version} (h : t.Outdated encoding load place)
    (hv : t.versions[place]? = some v) :
    v.isCurrent = true ∧ load.Contains encoding v.hashKey := by
  obtain ⟨w, row, _, _, hw, hplace, hleast, -⟩ := h
  rw [hv] at hw
  obtain rfl := Option.some.inj hw
  obtain ⟨u, hu, -, hcurrent, -⟩ := Table.exists_of_currentPlace? hplace
  rw [hv] at hu
  obtain rfl := Option.some.inj hu
  exact ⟨hcurrent, row, hleast.mem, hleast.key⟩

section
variable {t : Table} {encoding : KeyEncoding} {load : Load} (plan : Plan t encoding load.rows)
include plan

/-- The keys of a plan are those of the load. -/
theorem Plan.hashKeys_perm :
    (plan.changes.map fun c => c.1.hashKey).Perm (load.hashKeys encoding) := by
  have hnodup : (plan.changes.map fun c => c.1.hashKey).Nodup :=
    List.pairwise_map.mpr plan.distinct
  refine (List.perm_ext_iff_of_nodup hnodup (List.nodup_dedup _)).mpr fun hashKey => ?_
  rw [List.mem_map, ← Load.hashKeys, Load.mem_hashKeys, plan.contains_iff]

theorem Plan.nodup_replacedKeys : (replacedKeys plan.changes).Nodup :=
  List.pairwise_map.mpr (plan.distinct.sublist List.filter_sublist)

/-- A key that is replaced has a place. -/
theorem Plan.exists_place {hashKey : String} (h : hashKey ∈ replacedKeys plan.changes) :
    ∃ place, t.currentPlace? hashKey = some place := by
  obtain ⟨⟨s, effect⟩, hc, heffect, rfl⟩ := mem_replacedKeys.mp h
  cases plan.fits _ hc with
  | replace hcurrent _ _ => exact Table.exists_currentPlace? hcurrent
  | insert => cases heffect
  | keep => cases heffect

/-- The outdated versions stand at the places of the replaced keys. -/
theorem Plan.outdated_iff {place : Nat} :
    t.Outdated encoding load place ↔
      ∃ hashKey ∈ replacedKeys plan.changes, t.currentPlace? hashKey = some place := by
  constructor
  · rintro ⟨v, row, old, new, hv, hplace, hleast, hold, hnew, hne⟩
    obtain ⟨c, hc, hkey⟩ := plan.contains_iff.mp ⟨row, hleast.mem, hleast.key⟩
    refine ⟨v.hashKey, mem_replacedKeys.mpr ⟨c, hc, ?_, hkey⟩, hplace⟩
    have hcurrent : t.current? c.1.hashKey = some v := by
      rw [hkey, t.current?_eq_bind, hplace, Option.bind_some, hv]
    have hstaged := plan.digest_of_isLeast hc (hkey ▸ hleast)
    rw [hnew] at hstaged
    obtain rfl := Except.ok.inj hstaged
    obtain ⟨digest, hdigest, heffect⟩ := (plan.fits c hc).of_current hcurrent
    rw [hold] at hdigest
    obtain rfl := Except.ok.inj hdigest
    rwa [if_neg hne] at heffect
  · rintro ⟨hashKey, hmem, hplace⟩
    obtain ⟨c, hc, hreplace, rfl⟩ := mem_replacedKeys.mp hmem
    obtain ⟨v, hv, hcurrent, -, hkey⟩ := Table.exists_of_currentPlace? hplace
    obtain ⟨digest, hdigest, heffect⟩ := (plan.fits c hc).of_current hcurrent
    have hne : digest ≠ c.1.hashDiff := by
      intro hsame
      rw [hreplace, if_pos hsame] at heffect
      cases heffect
    rw [← hkey] at hplace
    exact ⟨v, c.1.row, digest, c.1.hashDiff, hv, hplace, hkey ▸ plan.isLeast hc, hdigest,
      (plan.rows_staged c.1 (plan.staged_mem hc)).hashDiff, hne⟩

end

/-! ## 4. Summaries -/

theorem Summary.ofEffects_inserted_add_unchanged (effects : List Effect) :
    (Summary.ofEffects effects).inserted + (Summary.ofEffects effects).unchanged =
      effects.length := by
  rw [List.length_eq_countP_add_countP (· != Effect.keep)]
  congr 1
  refine List.countP_congr fun effect _ => ?_
  simp

theorem Summary.ofEffects_closed_le (effects : List Effect) :
    (Summary.ofEffects effects).closed ≤ (Summary.ofEffects effects).inserted := by
  refine List.countP_mono_left fun effect _ h => ?_
  rw [eq_of_beq h]
  rfl

theorem length_writtenVersions (now : Int) (changes : List (Staged × Effect)) :
    (writtenVersions now changes).length =
      (Summary.ofEffects (changes.map Prod.snd)).inserted := by
  simp only [writtenVersions, Summary.ofEffects]
  rw [List.length_map, ← List.countP_eq_length_filter, List.countP_map]
  exact List.countP_congr fun c _ => by simp

theorem length_replacedKeys (changes : List (Staged × Effect)) :
    (replacedKeys changes).length = (Summary.ofEffects (changes.map Prod.snd)).closed := by
  simp only [replacedKeys, Summary.ofEffects]
  rw [List.length_map, ← List.countP_eq_length_filter, List.countP_map]
  exact List.countP_congr fun c _ => by simp

/-! ## 5. Writes -/

/-- What a load does to the versions of a history, and how its summary counts
it. -/
structure Table.Appends (t t' : Table) (encoding : KeyEncoding) (load : Load)
    (summary : Summary) : Prop where
  sizes : t'.keyCount = t.keyCount ∧ t'.attributeCount = t.attributeCount
  length : t'.versions.length = t.versions.length + summary.inserted
  /-- A version keeps its place, and is as it was unless it is outdated. -/
  kept : ∀ (place : Nat) (v : Version), t.versions[place]? = some v →
    ¬ t.Outdated encoding load place → t'.versions[place]? = some v
  /-- An outdated version is closed where it stands. -/
  closed : ∀ (place : Nat) (v : Version), t.versions[place]? = some v →
    t.Outdated encoding load place →
      v.isCurrent = true ∧ t'.versions[place]? = some (v.close load.time)
  untouched : ∀ (place : Nat) (v : Version), t.versions[place]? = some v →
    ¬ load.Contains encoding v.hashKey → t'.versions[place]? = some v
  /-- Behind the old versions stand the first versions of least rows. -/
  added : ∀ (place : Nat) (v : Version), t.versions.length ≤ place →
    t'.versions[place]? = some v →
      ∃ s : Staged, s.StagedBy t encoding ∧ load.IsLeast encoding s.hashKey s.row ∧
        v = .ofStaged load.time s
  closed_count : ∃ places : List Nat, places.Nodup ∧ places.length = summary.closed ∧
    ∀ place, place ∈ places ↔ t.Outdated encoding load place
  keys_count : summary.inserted + summary.unchanged = (load.hashKeys encoding).length
  closed_le : summary.closed ≤ summary.inserted

section
variable {t : Table} {encoding : KeyEncoding} {load : Load} (plan : Plan t encoding load.rows)
include plan

/-- The version at an old place after the plan. -/
theorem Plan.getElem?_closeEach {place : Nat} [Decidable (t.Outdated encoding load place)] :
    (closeEach load.time (replacedKeys plan.changes) t.versions)[place]? =
      if t.Outdated encoding load place then t.versions[place]?.map (Version.close load.time)
      else t.versions[place]? := by
  rw [History.getElem?_closeEach plan.nodup_replacedKeys]
  exact if_congr plan.outdated_iff.symm rfl rfl

/-- The places of the replaced keys. -/
theorem Plan.exists_places : ∃ places : List Nat, places.Nodup ∧
    places.length = (replacedKeys plan.changes).length ∧
    ∀ place, place ∈ places ↔ t.Outdated encoding load place := by
  refine ⟨(replacedKeys plan.changes).filterMap t.currentPlace?, ?_, ?_, fun place => ?_⟩
  · exact plan.nodup_replacedKeys.filterMap fun _ _ _ hl hr => Table.currentPlace?_inj hl hr
  · have hplaces : ∀ hashKey ∈ replacedKeys plan.changes,
        ∃ place, t.currentPlace? hashKey = some place ∧ True := fun hashKey hmem => by
      simpa using plan.exists_place hmem
    exact (forall₂_filterMap hplaces).length_eq
  · rw [List.mem_filterMap, plan.outdated_iff]

end

/-- A merge only appends, whatever the history is, and its summary is exact:
versions keep their places, the outdated ones are closed and are as many as
the summary says, all others stay as they are, and the keys of the load are
counted as inserted or unchanged. -/
theorem merge_appends (t t' : Table) (encoding : KeyEncoding) (load : Load) (summary : Summary)
    (h : t.merge encoding load.time load.rows = .ok (t', summary)) :
    t.Appends t' encoding load summary := by
  classical
  obtain ⟨plan, rfl, rfl⟩ := Table.merge_eq_ok_iff.mp h
  rw [foldl_apply_eq plan.distinct]
  have hlength := length_closeEach load.time (replacedKeys plan.changes) t.versions
  have hold : ∀ place v, t.versions[place]? = some v →
      (closeEach load.time (replacedKeys plan.changes) t.versions ++
        writtenVersions load.time plan.changes)[place]? =
      if t.Outdated encoding load place then some (v.close load.time) else some v := by
    intro place v hv
    have hlt := (List.getElem?_eq_some_iff.mp hv).1
    rw [List.getElem?_append_left (hlength ▸ hlt), plan.getElem?_closeEach, hv]
    rfl
  constructor
  case sizes => exact ⟨rfl, rfl⟩
  case length => simp [hlength, length_writtenVersions]
  case kept =>
    intro place v hv hnot
    rw [hold place v hv, if_neg hnot]
  case closed =>
    intro place v hv houtdated
    rw [hold place v hv, if_pos houtdated]
    exact ⟨(houtdated.of_getElem? hv).1, rfl⟩
  case untouched =>
    intro place v hv hnot
    rw [hold place v hv, if_neg fun houtdated => hnot (houtdated.of_getElem? hv).2]
  case added =>
    intro place v hle hv
    rw [List.getElem?_append_right (hlength ▸ hle)] at hv
    obtain ⟨c, hc, rfl⟩ := List.mem_map.mp (List.mem_of_getElem? hv)
    have hchange := List.mem_of_mem_filter hc
    exact ⟨c.1, plan.rows_staged c.1 (plan.staged_mem hchange), plan.isLeast hchange, rfl⟩
  case closed_count =>
    obtain ⟨places, hnodup, hcount, hmem⟩ := plan.exists_places
    exact ⟨places, hnodup, hcount.trans (length_replacedKeys _), hmem⟩
  case keys_count =>
    rw [Summary.ofEffects_inserted_add_unchanged, List.length_map, ← plan.hashKeys_perm.length_eq,
      List.length_map]
  case closed_le => exact Summary.ofEffects_closed_le _

/-- A history with two current versions of one key and one of another. -/
def doubledHistory : Table where
  keyCount := 1
  attributeCount := 1
  versions :=
    [⟨Sha256.hexDigest "1", [some "1"], [some "a"], Sha256.hexDigest "a", 10, true, 10, none⟩,
     ⟨Sha256.hexDigest "2", [some "2"], [none], Sha256.hexDigest "", 10, true, 10, none⟩,
     ⟨Sha256.hexDigest "1", [some "1"], [some "b"], Sha256.hexDigest "b", 15, true, 15, none⟩]

/-- A key with two rows, one with the attributes that are current, and a new
one. -/
def mixedLoad : Load :=
  ⟨20, [⟨[some "1"], [some "c"]⟩, ⟨[some "2"], [some ""]⟩, ⟨[some "3"], [some "a"]⟩,
    ⟨[some "1"], [some "b"]⟩]⟩

theorem doubledHistory_merged :
    ∃ t', doubledHistory.merge (.delimited "|") mixedLoad.time mixedLoad.rows =
      .ok (t', ⟨2, 1, 1⟩) := by
  have hsummary : (doubledHistory.merge (.delimited "|") mixedLoad.time mixedLoad.rows).map
      Prod.snd = .ok ⟨2, 1, 1⟩ := by
    decide +kernel
  obtain ⟨⟨t', summary⟩, hmerge, rfl⟩ := map_eq_ok_iff.mp hsummary
  exact ⟨t', hmerge⟩

theorem merge_appends_doubled :
    ∃ t', doubledHistory.merge (.delimited "|") mixedLoad.time mixedLoad.rows =
        .ok (t', ⟨2, 1, 1⟩) ∧
      doubledHistory.Appends t' (.delimited "|") mixedLoad ⟨2, 1, 1⟩ := by
  obtain ⟨t', hmerge⟩ := doubledHistory_merged
  exact ⟨t', hmerge, merge_appends doubledHistory t' _ mixedLoad _ hmerge⟩

end DataVault.History
