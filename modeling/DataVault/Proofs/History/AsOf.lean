/-
DataVault.Proofs.History.AsOf — the history as of a time.

A version is in force from its start until its end. `Faithful` says what the
versions in force at a time have to be: there is one for a key exactly when
the key has been loaded by then, and its attributes are those that the
latest such load gave the key.

The proof goes by the loads. Before the time of a load nothing changes: the
load closes versions at its own time and opens new ones then
(`asOf_result_of_lt`). From that time on the versions in force are the
current ones (`Dated.asOf_eq_currents`), and what a load makes of those is
known from its plan. A key whose attributes have the digest of the current
version keeps that version; the attributes are the same because the encoding
is unambiguous and no two texts of the run have one digest.
-/
import DataVault.Proofs.Digest.Decoding
import DataVault.Proofs.Digest.Separator
import DataVault.Proofs.History.Merging

namespace DataVault.History

open DataVault.Digest DataVault.Digest.KeyEncoding

/-! ## 1. Versions in force -/

/-- The version has started and has not ended. -/
def Version.InForce (v : Version) (time : Int) : Prop :=
  v.startsAt ≤ time ∧ ∀ e ∈ v.endsAt, time < e

instance (v : Version) (time : Int) : Decidable (v.InForce time) :=
  inferInstanceAs (Decidable (_ ∧ _))

/-- The versions of a key that are in force at a time. -/
def Table.asOf (t : Table) (hashKey : String) (time : Int) : List Version :=
  t.versions.filter fun v => v.hashKey = hashKey ∧ v.InForce time

/-! ## 2. What a load says of a key -/

namespace Load

/-- A row of the load has the hash key. -/
def Contains (load : Load) (encoding : KeyEncoding) (hashKey : String) : Prop :=
  ∃ row ∈ load.rows, encoding.digest row.key = .ok hashKey

/-- Of the rows with the hash key, none has a smaller digest of attributes. -/
structure IsLeast (load : Load) (encoding : KeyEncoding) (hashKey : String)
    (row : SnapshotRow) : Prop where
  mem : row ∈ load.rows
  key : encoding.digest row.key = .ok hashKey
  least : ∃ digest, encoding.digest row.attributes = .ok digest ∧
    ∀ other ∈ load.rows, encoding.digest other.key = .ok hashKey →
      ∃ otherDigest, encoding.digest other.attributes = .ok otherDigest ∧ digest ≤ otherDigest

/-- Of the loads up to a time that have the key, the load is the latest. -/
structure IsLatest (load : Load) (encoding : KeyEncoding) (loads : List Load) (hashKey : String)
    (time : Int) : Prop where
  mem : load ∈ loads
  by_then : load.time ≤ time
  contains : load.Contains encoding hashKey
  latest : ∀ other ∈ loads, other.time ≤ time → other.Contains encoding hashKey →
    other.time ≤ load.time

end Load

/-- The versions of a key in force at a time are those that the loads call
for. -/
structure Faithful (encoding : KeyEncoding) (loads : List Load) (t : Table) (hashKey : String)
    (time : Int) : Prop where
  unique : (t.asOf hashKey time).length ≤ 1
  exists_iff : t.asOf hashKey time ≠ [] ↔
    ∃ load ∈ loads, load.time ≤ time ∧ load.Contains encoding hashKey
  attributes : ∀ v ∈ t.asOf hashKey time, ∃ load : Load,
    load.IsLatest encoding loads hashKey time ∧ (∃ row, load.IsLeast encoding hashKey row) ∧
      ∀ row, load.IsLeast encoding hashKey row →
        v.attributes.map textOf = row.attributes.map textOf

section
variable {encoding : KeyEncoding} {load : Load} {t : Table} (plan : Plan t encoding load.rows)
include plan

/-- The keys that a plan changes are those of the load. -/
theorem Plan.contains_iff {hashKey : String} :
    load.Contains encoding hashKey ↔ ∃ c ∈ plan.changes, c.1.hashKey = hashKey := by
  constructor
  · rintro ⟨row, hrow, hkey⟩
    obtain ⟨c, hc, hsame, -⟩ := plan.exists_change hrow hkey
    exact ⟨c, hc, hsame⟩
  · rintro ⟨c, hc, rfl⟩
    have hs := plan.staged_mem hc
    exact ⟨c.1.row, plan.row_mem hs, (plan.rows_staged c.1 hs).hashKey⟩

/-- The row of a change is the least one of its key. -/
theorem Plan.isLeast {c : Staged × Effect} (hc : c ∈ plan.changes) :
    load.IsLeast encoding c.1.hashKey c.1.row := by
  have hs := plan.staged_mem hc
  have hstagedBy := plan.rows_staged c.1 hs
  refine ⟨plan.row_mem hs, hstagedBy.hashKey, c.1.hashDiff, hstagedBy.hashDiff, ?_⟩
  intro other hother hkey
  obtain ⟨d, hd, hsame, digest, hdigest, hle⟩ := plan.exists_change hother hkey
  rw [change_unique plan.distinct hc hd hsame] at hle
  exact ⟨digest, hdigest, hle⟩

/-- Every least row of a key has the digest of the change. -/
theorem Plan.digest_of_isLeast {c : Staged × Effect} (hc : c ∈ plan.changes) {row : SnapshotRow}
    (h : load.IsLeast encoding c.1.hashKey row) :
    encoding.digest row.attributes = .ok c.1.hashDiff := by
  have hchange := plan.isLeast hc
  have hvalue := (plan.rows_staged c.1 (plan.staged_mem hc)).hashDiff
  obtain ⟨digest, hdigest, hleast⟩ := h.least
  obtain ⟨d, hd, hle⟩ := hleast c.1.row hchange.mem hchange.key
  obtain ⟨e, he, hel⟩ := hchange.least
  obtain ⟨f, hf, hge⟩ := hel row h.mem h.key
  rw [hvalue] at hd he
  rw [hdigest] at hf
  obtain rfl := Except.ok.inj hd
  obtain rfl := Except.ok.inj he
  obtain rfl := Except.ok.inj hf
  rw [hdigest, le_antisymm hle hge]

end

/-! ## 3. Equal digests -/

/-- The texts that are hashed for the rows of some loads. -/
def encodedTexts (encoding : KeyEncoding) (loads : List Load) : List String :=
  (loads.flatMap Load.rows).flatMap fun row =>
    [row.key, row.attributes].filterMap fun values => (encoding.encode values).toOption

/-- No two of the texts have the same digest. -/
def CollisionFree (texts : List String) : Prop :=
  ∀ a ∈ texts, ∀ b ∈ texts, Sha256.hexDigest a = Sha256.hexDigest b → a = b

instance : DecidablePred CollisionFree := fun texts =>
  inferInstanceAs (Decidable (∀ a ∈ texts, ∀ b ∈ texts, _))

theorem CollisionFree.mono {texts more : List String} (h : CollisionFree more)
    (hsub : texts ⊆ more) : CollisionFree texts :=
  fun a ha b hb => h a (hsub ha) b (hsub hb)

theorem encodedTexts_append (encoding : KeyEncoding) (loads more : List Load) :
    encodedTexts encoding (loads ++ more) =
      encodedTexts encoding loads ++ encodedTexts encoding more := by
  simp [encodedTexts]

theorem mem_encodedTexts {encoding : KeyEncoding} {loads : List Load} {load : Load}
    {row : SnapshotRow} {values : List Value} {text : String} (hload : load ∈ loads)
    (hrow : row ∈ load.rows) (hvalues : values ∈ [row.key, row.attributes])
    (htext : encoding.encode values = .ok text) : text ∈ encodedTexts encoding loads := by
  refine List.mem_flatMap.mpr ⟨row, List.mem_flatMap.mpr ⟨load, hload, hrow⟩, ?_⟩
  refine List.mem_filterMap.mpr ⟨values, hvalues, ?_⟩
  rw [htext, Except.toOption]

/-- Values with the same digest are the same, if their texts are among some
that have different digests. -/
theorem eq_of_digest {encoding : KeyEncoding} (hencoding : encoding.Unambiguous)
    {texts : List String} (hfree : CollisionFree texts) {left right : List Value}
    (hlength : left.length = right.length)
    (hl : ∀ text, encoding.encode left = .ok text → text ∈ texts)
    (hr : ∀ text, encoding.encode right = .ok text → text ∈ texts) {digest : String}
    (hleft : encoding.digest left = .ok digest) (hright : encoding.digest right = .ok digest) :
    left.map textOf = right.map textOf := by
  obtain ⟨a, ha, hashA⟩ := digest_eq_ok_iff.mp hleft
  obtain ⟨b, hb, hashB⟩ := digest_eq_ok_iff.mp hright
  have hab : a = b := hfree a (hl a ha) b (hr b hb) (hashA.trans hashB.symm)
  subst hab
  exact hencoding left right hlength a ha hb

/-- The attributes are those of a row of the loads. -/
def Loaded (loads : List Load) (count : Nat) (attributes : List Value) : Prop :=
  attributes.length = count ∧ ∃ load ∈ loads, ∃ row ∈ load.rows, row.attributes = attributes

theorem Loaded.mem_encodedTexts {encoding : KeyEncoding} {loads : List Load} {count : Nat}
    {attributes : List Value} (h : Loaded loads count attributes) (text : String)
    (htext : encoding.encode attributes = .ok text) : text ∈ encodedTexts encoding loads := by
  obtain ⟨-, load, hload, row, hrow, rfl⟩ := h
  exact History.mem_encodedTexts hload hrow (by simp) htext

/-- The rows of the last load have been loaded. -/
theorem Plan.loaded {encoding : KeyEncoding} {load : Load} {t : Table}
    (plan : Plan t encoding load.rows) (loads : List Load) {row : SnapshotRow}
    (hrow : row ∈ load.rows) : Loaded (loads ++ [load]) t.attributeCount row.attributes := by
  refine ⟨?_, load, by simp, row, hrow, rfl⟩
  obtain ⟨s, hs, rfl⟩ := List.mem_map.mp (plan.rows_eq ▸ hrow)
  exact (plan.rows_staged s hs).attributesLength

/-! ## 4. Dates -/

/-- What the versions of a history have to do with the loads so far. -/
structure Dated (loads : List Load) (t : Table) : Prop where
  ended : ∀ v ∈ t.versions, v.isCurrent = true ↔ v.endsAt = none
  startsAt : ∀ v ∈ t.versions, v.startsAt ∈ loads.map Load.time
  endsAt : ∀ v ∈ t.versions, ∀ e ∈ v.endsAt, e ∈ loads.map Load.time
  loaded : ∀ v ∈ t.versions, Loaded loads t.attributeCount v.attributes

theorem dated_empty (keyCount attributeCount : Nat) :
    Dated [] (Table.empty keyCount attributeCount) := by
  constructor <;> intro v hv <;> cases hv

/-- A version of the result is a settled one or a new one. -/
theorem Plan.mem_result {t : Table} {encoding : KeyEncoding} {snapshot : List SnapshotRow}
    {plan : Plan t encoding snapshot} {now : Int} {v : Version}
    (hv : v ∈ (plan.result now).versions) :
    (∃ old ∈ t.versions, old.settle now (replacedKeys plan.changes) = v) ∨
      ∃ c ∈ plan.changes, .ofStaged now c.1 = v := by
  rcases List.mem_append.mp hv with hold | hnew
  · exact .inl (List.mem_map.mp hold)
  · obtain ⟨c, hc, hversion⟩ := List.mem_map.mp hnew
    exact .inr ⟨c, List.mem_of_mem_filter hc, hversion⟩

/-- A load keeps the dates in order. -/
theorem Dated.result {encoding : KeyEncoding} {loads : List Load} {t : Table} {load : Load}
    (h : Dated loads t) (plan : Plan t encoding load.rows) :
    Dated (loads ++ [load]) (plan.result load.time) := by
  have hnow : load.time ∈ (loads ++ [load]).map Load.time := by simp
  have hbefore : ∀ {time : Int}, time ∈ loads.map Load.time →
      time ∈ (loads ++ [load]).map Load.time := by
    intro time htime
    rw [List.map_append]
    exact List.mem_append_left _ htime
  constructor <;> intro v hv <;>
    rcases Plan.mem_result hv with ⟨old, hold, rfl⟩ | ⟨c, hc, rfl⟩
  · have := h.ended old hold
    unfold Version.settle
    split
    · simp [Version.close]
    · exact this
  · simp [Version.ofStaged]
  · rw [Version.settle_startsAt]
    exact hbefore (h.startsAt old hold)
  · exact hnow
  · intro e he
    unfold Version.settle at he
    split at he
    · obtain rfl : load.time = e := by simpa [Version.close] using he
      exact hnow
    · exact hbefore (h.endsAt old hold e he)
  · intro e he
    cases he
  · rw [Version.settle_attributes]
    obtain ⟨hcount, other, hother, hrow⟩ := h.loaded old hold
    exact ⟨hcount, other, List.mem_append_left _ hother, hrow⟩
  · exact plan.loaded loads (plan.row_mem (plan.staged_mem hc))

/-- After the last load, the versions in force are the current ones. -/
theorem Dated.asOf_eq_currents {loads : List Load} {t : Table} (h : Dated loads t)
    {hashKey : String} {time : Int} (htime : ∀ load ∈ loads, load.time ≤ time) :
    t.asOf hashKey time = t.currents hashKey := by
  have hpast : ∀ {when : Int}, when ∈ loads.map Load.time → when ≤ time := by
    intro when hwhen
    obtain ⟨load, hload, rfl⟩ := List.mem_map.mp hwhen
    exact htime load hload
  refine List.filter_congr fun v hv => ?_
  rw [Bool.eq_iff_iff, decide_eq_true_iff, Version.isCurrentOf_iff, and_comm]
  refine and_congr_left fun _ => ?_
  rw [h.ended v hv]
  constructor
  · rintro ⟨-, hend⟩
    rw [Option.eq_none_iff_forall_not_mem]
    intro e he
    have := hend e he
    have := hpast (h.endsAt v hv e he)
    omega
  · intro hend
    exact ⟨hpast (h.startsAt v hv), fun e he => by rw [hend] at he; cases he⟩

/-- Before the time of a load, what is in force stays as it was. -/
theorem asOf_result_of_lt {encoding : KeyEncoding} {snapshot : List SnapshotRow}
    {loads : List Load} {t : Table} (h : Dated loads t) (plan : Plan t encoding snapshot)
    {hashKey : String} {now time : Int} (htime : time < now) :
    (plan.result now).asOf hashKey time =
      (t.asOf hashKey time).map (Version.settle now (replacedKeys plan.changes)) := by
  have hnew : (writtenVersions now plan.changes).filter
      (fun v => v.hashKey = hashKey ∧ v.InForce time) = [] := by
    rw [List.filter_eq_nil_iff]
    intro v hv
    obtain ⟨c, -, rfl⟩ := List.mem_map.mp hv
    rw [decide_eq_true_iff]
    rintro ⟨-, hstart, -⟩
    exact absurd hstart (not_le.mpr htime)
  unfold Table.asOf Plan.result
  rw [List.filter_append, hnew, List.append_nil, List.filter_map]
  congr 1
  refine List.filter_congr fun v hv => ?_
  rw [Function.comp_apply, Bool.eq_iff_iff, decide_eq_true_iff, decide_eq_true_iff,
    Version.settle_hashKey]
  refine and_congr_right fun _ => ?_
  unfold Version.settle
  split
  · next hclosed =>
    -- A version that the load closes had no end before.
    have hend := (h.ended v hv).mp hclosed.1
    simp [Version.InForce, Version.close, hend, htime]
  · exact Iff.rfl

/-! ## 5. One more load -/

section
variable {encoding : KeyEncoding} {loads : List Load} {load : Load} {t : Table}
  {hashKey : String} {time : Int}

/-- A load that is not seen, because it is later or has not the key, leaves
the latest load what it was. -/
theorem Load.IsLatest.concat {latest : Load} (h : latest.IsLatest encoding loads hashKey time)
    (hunseen : load.time ≤ time → ¬ load.Contains encoding hashKey) :
    latest.IsLatest encoding (loads ++ [load]) hashKey time := by
  refine ⟨List.mem_append_left _ h.mem, h.by_then, h.contains, ?_⟩
  refine List.forall_mem_append.mpr ⟨h.latest, List.forall_mem_singleton.mpr ?_⟩
  exact fun htime hcontains => absurd hcontains (hunseen htime)

/-- A load that is not seen may close versions, and changes nothing else. -/
theorem Faithful.concat {t' : Table} (h : Faithful encoding loads t hashKey time)
    (hunseen : load.time ≤ time → ¬ load.Contains encoding hashKey) (close : Version → Version)
    (hclose : ∀ v, (close v).attributes = v.attributes)
    (hasOf : t'.asOf hashKey time = (t.asOf hashKey time).map close) :
    Faithful encoding (loads ++ [load]) t' hashKey time := by
  constructor
  · rw [hasOf, List.length_map]
    exact h.unique
  · rw [hasOf, Ne, List.map_eq_nil_iff, ← Ne, h.exists_iff]
    constructor
    · rintro ⟨other, hother, hseen⟩
      exact ⟨other, List.mem_append_left _ hother, hseen⟩
    · rintro ⟨other, hother, htime, hcontains⟩
      rcases List.mem_append.mp hother with hold | hnew
      · exact ⟨other, hold, htime, hcontains⟩
      · rw [List.mem_singleton.mp hnew] at htime hcontains
        exact absurd hcontains (hunseen htime)
  · intro v hv
    rw [hasOf] at hv
    obtain ⟨old, hold, rfl⟩ := List.mem_map.mp hv
    obtain ⟨latest, hlatest, hleast, hattributes⟩ := h.attributes old hold
    rw [hclose]
    exact ⟨latest, hlatest.concat hunseen, hleast, hattributes⟩

/-- A load that has the key determines what is in force from its time on. -/
theorem faithful_of_changed (hencoding : encoding.Unambiguous)
    (hfree : CollisionFree (encodedTexts encoding (loads ++ [load])))
    (hsingle : t.SingleCurrent) (hdated : Dated loads t) (plan : Plan t encoding load.rows)
    (hbefore : ∀ other ∈ loads, other.time < load.time) {c : Staged × Effect}
    (hc : c ∈ plan.changes) (htime : load.time ≤ time) :
    Faithful encoding (loads ++ [load]) (plan.result load.time) c.1.hashKey time := by
  have hresult := hdated.result plan
  have hseen : ∀ other ∈ loads ++ [load], other.time ≤ load.time :=
    List.forall_mem_append.mpr
      ⟨fun other hother => (hbefore other hother).le, List.forall_mem_singleton.mpr (le_refl _)⟩
  have hcontains : load.Contains encoding c.1.hashKey := plan.contains_iff.mpr ⟨c, hc, rfl⟩
  -- The current version has the digest of the change, kept or new.
  obtain ⟨v, hcurrents, hdigest⟩ := plan.exists_current_of_changed load.time hsingle hc
  have hasOf : (plan.result load.time).asOf c.1.hashKey time = [v] := by
    rw [hresult.asOf_eq_currents fun other hother => (hseen other hother).trans htime]
    exact hcurrents
  have hversion : v ∈ (plan.result load.time).currents c.1.hashKey := by
    rw [hcurrents]
    exact List.mem_singleton.mpr rfl
  constructor
  · rw [hasOf]
    exact le_refl 1
  · refine iff_of_true ?_ ⟨load, by simp, htime, hcontains⟩
    rw [hasOf]
    exact List.cons_ne_nil _ _
  · rw [hasOf, List.forall_mem_singleton]
    refine ⟨load, ⟨by simp, htime, hcontains, fun other hother _ _ => hseen other hother⟩,
      ⟨c.1.row, plan.isLeast hc⟩, ?_⟩
    intro row hrow
    have hloaded := hresult.loaded v (List.mem_of_mem_filter hversion)
    have hrowLoaded := plan.loaded loads hrow.mem
    exact eq_of_digest hencoding hfree (hloaded.1.trans hrowLoaded.1.symm) hloaded.mem_encodedTexts
      hrowLoaded.mem_encodedTexts hdigest (plan.digest_of_isLeast hc hrow)

/-- One more load leaves a faithful history. -/
theorem faithful_result (hencoding : encoding.Unambiguous)
    (hfree : CollisionFree (encodedTexts encoding (loads ++ [load])))
    (hsingle : t.SingleCurrent) (hdated : Dated loads t) (plan : Plan t encoding load.rows)
    (hbefore : ∀ other ∈ loads, other.time < load.time)
    (h : Faithful encoding loads t hashKey time) :
    Faithful encoding (loads ++ [load]) (plan.result load.time) hashKey time := by
  by_cases htime : load.time ≤ time
  · by_cases hcontains : load.Contains encoding hashKey
    · obtain ⟨c, hc, rfl⟩ := plan.contains_iff.mp hcontains
      exact faithful_of_changed hencoding hfree hsingle hdated plan hbefore hc htime
    · have hpast : ∀ other ∈ loads, other.time ≤ time :=
        fun other hother => (hbefore other hother).le.trans htime
      have hall : ∀ other ∈ loads ++ [load], other.time ≤ time :=
        List.forall_mem_append.mpr ⟨hpast, List.forall_mem_singleton.mpr htime⟩
      have hunchanged := plan.currents_of_unchanged load.time fun c hc hkey =>
        hcontains (plan.contains_iff.mpr ⟨c, hc, hkey⟩)
      refine h.concat (fun _ => hcontains) id (fun _ => rfl) ?_
      rw [(hdated.result plan).asOf_eq_currents hall, hunchanged, hdated.asOf_eq_currents hpast,
        List.map_id]
  · exact h.concat (fun hle => absurd hle htime)
      (Version.settle load.time (replacedKeys plan.changes)) (fun _ => Version.settle_attributes)
      (asOf_result_of_lt hdated plan (not_le.mp htime))

end

/-! ## 6. Runs -/

theorem faithful_empty (encoding : KeyEncoding) (keyCount attributeCount : Nat) (hashKey : String)
    (time : Int) : Faithful encoding [] (Table.empty keyCount attributeCount) hashKey time := by
  constructor
  · exact Nat.zero_le 1
  · simp [Table.asOf, Table.empty]
  · intro v hv
    cases hv

/-- An unambiguous encoding makes every run faithful. -/
theorem faithful_of_unambiguous {encoding : KeyEncoding} (hencoding : encoding.Unambiguous)
    {keyCount attributeCount : Nat} {loads : List Load} {t : Table}
    (hrun : (Table.empty keyCount attributeCount).mergeAll encoding loads = .ok t)
    (htimes : loads.Pairwise fun a b => a.time < b.time)
    (hfree : CollisionFree (encodedTexts encoding loads)) (hashKey : String) (time : Int) :
    Faithful encoding loads t hashKey time := by
  have hinvariant := mergeAll_induction (singleCurrent_empty keyCount attributeCount)
    (P := fun loads t => Dated loads t ∧ ((loads.Pairwise fun a b => a.time < b.time) →
      CollisionFree (encodedTexts encoding loads) → Faithful encoding loads t hashKey time))
    ⟨dated_empty keyCount attributeCount, fun _ _ => faithful_empty ..⟩ ?_ hrun
  · exact hinvariant.2.2 htimes hfree
  · rintro loads t load plan hsingle ⟨hdated, hfaithful⟩
    refine ⟨hdated.result plan, fun htimes hfree => ?_⟩
    obtain ⟨hloads, -, hlast⟩ := List.pairwise_append.mp htimes
    have hbefore : ∀ other ∈ loads, other.time < load.time :=
      fun other hother => hlast other hother load (List.mem_singleton.mpr rfl)
    have hearlier : CollisionFree (encodedTexts encoding loads) := by
      rw [encodedTexts_append] at hfree
      exact hfree.mono (List.subset_append_left _ _)
    exact faithful_result hencoding hfree hsingle hdated plan hbefore (hfaithful hloads hearlier)

/-- The history is a faithful record: after loads at increasing times, no two
texts of which have one digest, the versions in force at any time are those
that the loads up to then call for. -/
theorem history_faithful (encoding : KeyEncoding)
    (hencoding : encoding = .lengthPrefixed ∨ ∃ c, encoding = .delimited (String.singleton c))
    (keyCount attributeCount : Nat) (loads : List Load) (t : Table)
    (hrun : (Table.empty keyCount attributeCount).mergeAll encoding loads = .ok t)
    (htimes : loads.Pairwise fun a b => a.time < b.time)
    (hfree : CollisionFree (encodedTexts encoding loads)) (hashKey : String) (time : Int) :
    Faithful encoding loads t hashKey time := by
  refine faithful_of_unambiguous ?_ hrun htimes hfree hashKey time
  rcases hencoding with rfl | ⟨c, rfl⟩
  · exact lengthPrefixed_unambiguous
  · exact delimited_unambiguous (by simp) (by simpa using unbordered_singleton c)

/-- Two loads: a key with two rows, and then that key with other attributes
beside a new key. -/
def sampleLoads : List Load :=
  [⟨10, [⟨[some "1"], [some "new"]⟩, ⟨[some "1"], [none]⟩]⟩,
   ⟨20, [⟨[some "1"], [some "old"]⟩, ⟨[some "2"], [some "new"]⟩]⟩]

theorem history_faithful_sample :
    ∃ t, (Table.empty 1 1).mergeAll (.delimited "|") sampleLoads = .ok t ∧
      Faithful (.delimited "|") sampleLoads t (Sha256.hexDigest "1") 20 := by
  have hruns :
      ((Table.empty 1 1).mergeAll (.delimited "|") sampleLoads).toOption.isSome = true := by
    decide +kernel
  cases hrun : (Table.empty 1 1).mergeAll (.delimited "|") sampleLoads with
  | error e =>
    rw [hrun] at hruns
    cases hruns
  | ok t =>
    exact ⟨t, rfl, history_faithful (.delimited "|") (.inr ⟨'|', by decide⟩) 1 1 sampleLoads t hrun
      (by decide) (by decide +kernel) (Sha256.hexDigest "1") 20⟩

end DataVault.History
