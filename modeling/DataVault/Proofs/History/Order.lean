/-
DataVault.Proofs.History.Order — what the order of a snapshot decides.

Two plans of the same rows for one history stage the same keys with the same
digests and the same effects, so they close the same versions and have the
same summary; only the order of the new versions and the rows that they are
made of can differ. `Plan.map_perm` says so for everything that is read off
the changes one by one.

The order does decide which row is stored where two different rows of a key
have the least digest (`Table.Tied`): the first one is staged. Equal digests
mean equal texts of the values, so without ambiguity and without collisions
such rows differ in nothing but missing values against empty ones. That is
enough to make the versions that are written differ.
-/
import DataVault.Proofs.History.Redelivery

namespace DataVault.History

open DataVault.Digest DataVault.Digest.KeyEncoding DataVault.Lists DataVault.Results

/-! ## 1. Two plans of the same rows -/

/-- The effect of a staged row is determined by its digests. -/
theorem Fits.unique {t : Table} {encoding : KeyEncoding} {s u : Staged} {left right : Effect}
    (hl : Fits t encoding s left) (hr : Fits t encoding u right) (hkey : s.hashKey = u.hashKey)
    (hdiff : s.hashDiff = u.hashDiff) : left = right := by
  have hsame : t.effectOf encoding s = t.effectOf encoding u := by
    simp only [Table.effectOf, hkey, hdiff]
  rw [Table.effectOf_eq_ok_iff.mpr hl, Table.effectOf_eq_ok_iff.mpr hr] at hsame
  exact Except.ok.inj hsame

section
variable {t : Table} {encoding : KeyEncoding} {load again : Load}
  (plan : Plan t encoding load.rows) (other : Plan t encoding again.rows)
  (hsame : load.SameRows again)
include hsame

/-- Changes of one key have the same digest and effect. -/
theorem Plan.change_eq {c d : Staged × Effect} (hc : c ∈ plan.changes) (hd : d ∈ other.changes)
    (hkey : c.1.hashKey = d.1.hashKey) : c.1.hashDiff = d.1.hashDiff ∧ c.2 = d.2 := by
  obtain ⟨e, he, hekey, hediff⟩ := plan.exists_matching other hsame hc
  obtain rfl := change_unique other.distinct hd he (hekey.trans hkey)
  exact ⟨hediff.symm, (plan.fits c hc).unique (other.fits e he) hkey hediff.symm⟩

/-- What is the same for the changes of each key is the same for the plans, up
to order. -/
theorem Plan.map_perm {β : Type} {g : Staged × Effect → β}
    (hg : ∀ c ∈ plan.changes, ∀ d ∈ other.changes, c.1.hashKey = d.1.hashKey → g c = g d) :
    (plan.changes.map g).Perm (other.changes.map g) := by
  -- Beside its key, each image occurs only once.
  have hnodup : ∀ {load : Load} (plan : Plan t encoding load.rows),
      (plan.changes.map fun c => (c.1.hashKey, g c)).Nodup := fun plan =>
    List.pairwise_map.mpr (plan.distinct.imp fun hne heq => hne (Prod.mk.inj heq).1)
  have hpairs : (plan.changes.map fun c => (c.1.hashKey, g c)).Perm
      (other.changes.map fun c => (c.1.hashKey, g c)) := by
    refine (List.perm_ext_iff_of_nodup (hnodup plan) (hnodup other)).mpr fun pair => ?_
    rw [List.mem_map, List.mem_map]
    constructor
    · rintro ⟨c, hc, rfl⟩
      obtain ⟨d, hd, hkey, -⟩ := plan.exists_matching other hsame hc
      exact ⟨d, hd, by rw [hkey, hg c hc d hd hkey.symm]⟩
    · rintro ⟨d, hd, rfl⟩
      obtain ⟨c, hc, hkey, -⟩ := other.exists_matching plan hsame.symm hd
      exact ⟨c, hc, by rw [← hkey, hg c hc d hd hkey]⟩
  simpa [List.map_map, Function.comp_def] using hpairs.map Prod.snd

/-- The summaries are the same. -/
theorem Plan.summary_eq :
    Summary.ofEffects (plan.changes.map Prod.snd) =
      Summary.ofEffects (other.changes.map Prod.snd) := by
  have hperm : (plan.changes.map Prod.snd).Perm (other.changes.map Prod.snd) :=
    plan.map_perm other hsame fun c hc d hd hkey => (plan.change_eq other hsame hc hd hkey).2
  simp only [Summary.ofEffects, hperm.countP_eq]

/-- The same versions are outdated. -/
theorem Load.SameRows.outdated {place : Nat} (h : t.Outdated encoding load place) :
    t.Outdated encoding again place := by
  obtain ⟨v, row, old, new, hv, hplace, hleast, hrest⟩ := h
  exact ⟨v, row, old, new, hv, hplace, hsame.isLeast hleast, hrest⟩

/-- The old versions are left the same. -/
theorem Plan.closeEach_eq (htime : again.time = load.time) :
    closeEach again.time (replacedKeys other.changes) t.versions =
      closeEach load.time (replacedKeys plan.changes) t.versions := by
  classical
  refine List.ext_getElem? fun place => ?_
  rw [plan.getElem?_closeEach, other.getElem?_closeEach, htime]
  exact if_congr ⟨hsame.symm.outdated, hsame.outdated⟩ rfl rfl

end

/-! ## 2. New versions -/

/-- What is read off the new versions, change by change. -/
theorem map_writtenVersions {β : Type} (f : Version → β) (now : Int)
    (changes : List (Staged × Effect)) :
    (writtenVersions now changes).map f =
      (changes.map fun c => if c.2 = .keep then none else some (f (.ofStaged now c.1))).filterMap
        id := by
  induction changes with
  | nil => rfl
  | cons c changes ih =>
    obtain ⟨s, effect⟩ := c
    rw [writtenVersions_cons]
    cases effect <;> simp [ih]

section
variable {t : Table} {encoding : KeyEncoding} {load again : Load}
  (plan : Plan t encoding load.rows) (other : Plan t encoding again.rows)
  (hsame : load.SameRows again) (htime : again.time = load.time)
include hsame htime

/-- The histories are the same, up to order, in what is the same for the new
versions of each key. -/
theorem Plan.applied_perm {β : Type} {f : Version → β}
    (hf : ∀ c ∈ plan.changes, ∀ d ∈ other.changes, c.1.hashKey = d.1.hashKey → c.2 ≠ .keep →
      f (.ofStaged load.time c.1) = f (.ofStaged load.time d.1)) :
    ((other.changes.foldl (Table.apply again.time) t).versions.map f).Perm
      ((plan.changes.foldl (Table.apply load.time) t).versions.map f) := by
  have hold := plan.closeEach_eq other hsame htime
  rw [htime] at hold ⊢
  rw [foldl_apply_eq plan.distinct, foldl_apply_eq other.distinct]
  simp only [List.map_append, hold, map_writtenVersions]
  refine (List.Perm.filterMap id ?_).append_left _
  refine (plan.map_perm other hsame fun c hc d hd hkey => ?_).symm
  rw [(plan.change_eq other hsame hc hd hkey).2]
  by_cases hkeep : d.2 = .keep
  · rw [if_pos hkeep, if_pos hkeep]
  · have hwritten : c.2 ≠ .keep := (plan.change_eq other hsame hc hd hkey).2 ▸ hkeep
    rw [if_neg hkeep, if_neg hkeep, hf c hc d hd hkey hwritten]

end

/-! ## 3. Ties -/

/-- The current version of a key has attributes with the digest of the row's. -/
def Table.Holds (t : Table) (encoding : KeyEncoding) (hashKey : String) (row : SnapshotRow) :
    Prop :=
  ∃ v, t.current? hashKey = some v ∧ encoding.digest v.attributes = encoding.digest row.attributes

/-- Two different rows of the load are least for one key, and a version of the
key is written. -/
def Table.Tied (t : Table) (encoding : KeyEncoding) (load : Load) : Prop :=
  ∃ hashKey left right, load.IsLeast encoding hashKey left ∧
    load.IsLeast encoding hashKey right ∧ left ≠ right ∧ ¬ t.Holds encoding hashKey left

theorem Plan.keep_iff {t : Table} {encoding : KeyEncoding} {snapshot : List SnapshotRow}
    (plan : Plan t encoding snapshot) {c : Staged × Effect} (hc : c ∈ plan.changes) :
    c.2 = .keep ↔ t.Holds encoding c.1.hashKey c.1.row := by
  have hdiff := (plan.rows_staged c.1 (plan.staged_mem hc)).hashDiff
  obtain ⟨s, effect⟩ := c
  unfold Table.Holds
  rw [hdiff]
  cases plan.fits _ hc with
  | insert hnone => simp [hnone]
  | keep hcurrent hdigest => simp [hcurrent, hdigest]
  | replace hcurrent hdigest hne => simp [hcurrent, hdigest, hne]

/-- A least row that comes first is staged. -/
theorem Plan.exists_first {t : Table} {encoding : KeyEncoding} {load : Load}
    (plan : Plan t encoding load.rows) {hashKey : String} {row : SnapshotRow}
    {rest : List SnapshotRow} (hrows : load.rows = row :: rest)
    (hleast : load.IsLeast encoding hashKey row) :
    ∃ c ∈ plan.changes, c.1.hashKey = hashKey ∧ c.1.row = row := by
  have hmap := plan.rows_eq.trans hrows
  obtain ⟨s, staged, hsplit, rfl, rfl⟩ := List.map_eq_cons_iff.mp hmap
  have hstagedBy := plan.rows_staged s (hsplit ▸ List.mem_cons_self)
  have hkey : s.hashKey = hashKey := Except.ok.inj (hstagedBy.hashKey.symm.trans hleast.key)
  have hmem : s ∈ stagedOf plan.rows := by
    rw [hsplit]
    refine head_mem_stagedOf fun r hr hsame => ?_
    have hr' : r ∈ plan.rows := hsplit ▸ List.mem_cons_of_mem s hr
    have hrBy := plan.rows_staged r hr'
    obtain ⟨digest, hdigest, hle⟩ := hleast.least
    obtain ⟨digest', hdigest', hle'⟩ :=
      hle r.row (plan.row_mem hr') (hrBy.hashKey.trans (by rw [hsame, hkey]))
    rw [hstagedBy.hashDiff] at hdigest
    rw [hrBy.hashDiff] at hdigest'
    obtain rfl := Except.ok.inj hdigest
    obtain rfl := Except.ok.inj hdigest'
    exact hle'
  rw [← plan.changes_staged] at hmem
  obtain ⟨c, hc, rfl⟩ := List.mem_map.mp hmem
  exact ⟨c, hc, hkey, rfl⟩

/-! ## 4. Permutations of a snapshot -/

namespace Version

/-- The version without the values that it stores. -/
def withoutValues (v : Version) : Version := { v with key := [], attributes := [] }

/-- The version with missing values read as empty texts. -/
def coalesced (v : Version) : Version :=
  { v with
    key := v.key.map fun value => some (textOf value)
    attributes := v.attributes.map fun value => some (textOf value) }

end Version

section
variable {t : Table} {encoding : KeyEncoding} {load again : Load}
  (plan : Plan t encoding load.rows) (other : Plan t encoding again.rows)
  (hsame : load.SameRows again) {c d : Staged × Effect} (hc : c ∈ plan.changes)
  (hd : d ∈ other.changes) (hkey : c.1.hashKey = d.1.hashKey)
include hsame hc hd hkey

/-- But for the values that they store, the new versions of a key are the
same. -/
theorem Plan.withoutValues_eq :
    (Version.ofStaged load.time c.1).withoutValues =
      (Version.ofStaged load.time d.1).withoutValues := by
  have hdiff := (plan.change_eq other hsame hc hd hkey).1
  simp [Version.withoutValues, Version.ofStaged, hkey, hdiff]

/-- Without ties, the new versions of a key are the same. -/
theorem Plan.ofStaged_eq (hties : ¬ t.Tied encoding load) (hwritten : c.2 ≠ .keep) :
    Version.ofStaged load.time c.1 = .ofStaged load.time d.1 := by
  have hdiff := (plan.change_eq other hsame hc hd hkey).1
  have hrow : c.1.row = d.1.row := by
    by_contra hne
    exact hties ⟨c.1.hashKey, c.1.row, d.1.row, plan.isLeast hc,
      hkey ▸ hsame.symm.isLeast (other.isLeast hd), hne, (plan.keep_iff hc).not.mp hwritten⟩
  simp [Version.ofStaged, hkey, hdiff, hrow]

/-- Where digests tell values apart, the new versions of a key store the same
values, a missing one being an empty text. -/
theorem Plan.coalesced_eq (hencoding : encoding.Unambiguous)
    (hfree : CollisionFree (encodedTexts encoding [load])) :
    (Version.ofStaged load.time c.1).coalesced = (Version.ofStaged load.time d.1).coalesced := by
  have hdiff := (plan.change_eq other hsame hc hd hkey).1
  have hcBy := plan.rows_staged c.1 (plan.staged_mem hc)
  have hdBy := other.rows_staged d.1 (other.staged_mem hd)
  have hcRow : c.1.row ∈ load.rows := plan.row_mem (plan.staged_mem hc)
  have hdRow : d.1.row ∈ load.rows := (hsame _).mp (other.row_mem (other.staged_mem hd))
  have hload : load ∈ [load] := List.mem_singleton.mpr rfl
  have hkeys : c.1.row.key.map textOf = d.1.row.key.map textOf :=
    eq_of_digest hencoding hfree (hcBy.keyLength.trans hdBy.keyLength.symm)
      (fun _ => mem_encodedTexts hload hcRow (by simp))
      (fun _ => mem_encodedTexts hload hdRow (by simp)) hcBy.hashKey (hkey ▸ hdBy.hashKey)
  have hattributes : c.1.row.attributes.map textOf = d.1.row.attributes.map textOf :=
    eq_of_digest hencoding hfree (hcBy.attributesLength.trans hdBy.attributesLength.symm)
      (fun _ => mem_encodedTexts hload hcRow (by simp))
      (fun _ => mem_encodedTexts hload hdRow (by simp)) hcBy.hashDiff (hdiff ▸ hdBy.hashDiff)
  have hsome : ∀ {left right : List Value}, left.map textOf = right.map textOf →
      left.map (fun value => some (textOf value)) = right.map fun value => some (textOf value) := by
    intro left right h
    simpa [Function.comp_def] using congrArg (List.map some) h
  simp [Version.coalesced, Version.ofStaged, hkey, hdiff, hsome hkeys, hsome hattributes]

end

/-! ## 5. Order -/

theorem Load.sameRows_of_perm {load again : Load} (h : again.rows.Perm load.rows) :
    load.SameRows again := fun _ => h.mem_iff

theorem Plan.nonempty_of_sameRows {t : Table} {encoding : KeyEncoding} {load again : Load}
    (plan : Plan t encoding load.rows) (hsame : load.SameRows again) :
    Nonempty (Plan t encoding again.rows) :=
  nonempty_plan_iff.mpr fun row hrow => nonempty_plan_iff.mp ⟨plan⟩ row ((hsame row).mp hrow)

theorem mem_writtenVersions {now : Int} {changes : List (Staged × Effect)} {v : Version} :
    v ∈ writtenVersions now changes ↔ ∃ c ∈ changes, c.2 ≠ .keep ∧ .ofStaged now c.1 = v := by
  simp [writtenVersions, and_assoc]

/-- Two tied rows are each stored when they come first, which leaves different
histories. -/
theorem Table.Tied.exists_orders {t : Table} {encoding : KeyEncoding} {load : Load}
    (h : t.Tied encoding load) :
    ∃ first second : Load, first.rows.Perm load.rows ∧ second.rows.Perm load.rows ∧
      ∀ (l : Plan t encoding first.rows) (r : Plan t encoding second.rows),
        ¬ (l.changes.foldl (Table.apply load.time) t).versions.Perm
          (r.changes.foldl (Table.apply load.time) t).versions := by
  obtain ⟨hashKey, left, right, hleft, hright, hne, hwritten⟩ := h
  have hpermL := (List.perm_cons_erase hleft.mem).symm
  have hpermR := (List.perm_cons_erase hright.mem).symm
  refine ⟨⟨load.time, left :: load.rows.erase left⟩, ⟨load.time, right :: load.rows.erase right⟩,
    hpermL, hpermR, fun l r hperm => hne ?_⟩
  have hsameL : load.SameRows ⟨load.time, left :: load.rows.erase left⟩ :=
    Load.sameRows_of_perm hpermL
  have hsameR : load.SameRows ⟨load.time, right :: load.rows.erase right⟩ :=
    Load.sameRows_of_perm hpermR
  obtain ⟨c, hc, hckey, hcrow⟩ := l.exists_first rfl (hsameL.isLeast hleft)
  obtain ⟨d, hd, hdkey, hdrow⟩ := r.exists_first rfl (hsameR.isLeast hright)
  have hkept : c.2 ≠ .keep := by
    rw [Ne, l.keep_iff hc, hckey, hcrow]
    exact hwritten
  have hold := l.closeEach_eq r (fun row => (hsameR row).trans (hsameL row).symm) rfl
  rw [foldl_apply_eq l.distinct, foldl_apply_eq r.distinct] at hperm
  simp only [hold, List.perm_append_left_iff] at hperm
  -- The version made of the left row has to be the one made of the right row.
  have hmem := hperm.mem_iff.mp (mem_writtenVersions.mpr ⟨c, hc, hkept, rfl⟩)
  obtain ⟨e, he, -, hversion⟩ := mem_writtenVersions.mp hmem
  simp only [Version.ofStaged, Version.mk.injEq] at hversion
  obtain ⟨hkey, hvalues, hattributes, -⟩ := hversion
  obtain rfl := change_unique r.distinct hd he (hkey.trans (hckey.trans hdkey.symm))
  rw [hcrow, hdrow] at hvalues hattributes
  exact congrArg₂ SnapshotRow.mk hvalues.symm hattributes.symm

/-- For a load that is accepted, the order of its rows does not matter to the
summary, nor to the history but for the stored values, and to those at most in
which of them are missing and which empty, if digests tell values apart. It
does not matter to the history at all exactly when no two different rows are
tied. -/
theorem order_free_iff (t t' : Table) (encoding : KeyEncoding) (load : Load) (summary : Summary)
    (h : t.merge encoding load.time load.rows = .ok (t', summary)) :
    (∀ rows, rows.Perm load.rows → ∃ u, t.merge encoding load.time rows = .ok (u, summary) ∧
      (u.versions.map Version.withoutValues).Perm (t'.versions.map Version.withoutValues) ∧
      (encoding.Unambiguous → CollisionFree (encodedTexts encoding [load]) →
        (u.versions.map Version.coalesced).Perm (t'.versions.map Version.coalesced))) ∧
    ((∀ rows, rows.Perm load.rows → ∀ u other, t.merge encoding load.time rows = .ok (u, other) →
        other = summary ∧ u.versions.Perm t'.versions) ↔ ¬ t.Tied encoding load) := by
  obtain ⟨plan, rfl, rfl⟩ := Table.merge_eq_ok_iff.mp h
  constructor
  · intro rows hperm
    have hsame : load.SameRows ⟨load.time, rows⟩ := Load.sameRows_of_perm hperm
    obtain ⟨other⟩ := plan.nonempty_of_sameRows hsame
    refine ⟨other.changes.foldl (Table.apply load.time) t,
      Table.merge_eq_ok_iff.mpr ⟨other, rfl, (plan.summary_eq other hsame).symm⟩, ?_,
      fun hencoding hfree => ?_⟩
    · exact plan.applied_perm other hsame rfl fun c hc d hd hkey _ =>
        plan.withoutValues_eq other hsame hc hd hkey
    · exact plan.applied_perm other hsame rfl fun c hc d hd hkey _ =>
        plan.coalesced_eq other hsame hc hd hkey hencoding hfree
  · constructor
    · intro horder hties
      obtain ⟨first, second, hfirst, hsecond, hdiffer⟩ := hties.exists_orders
      obtain ⟨l⟩ := plan.nonempty_of_sameRows (Load.sameRows_of_perm hfirst)
      obtain ⟨r⟩ := plan.nonempty_of_sameRows (Load.sameRows_of_perm hsecond)
      have hl := (horder first.rows hfirst _ _ (Table.merge_eq_ok_iff.mpr ⟨l, rfl, rfl⟩)).2
      have hr := (horder second.rows hsecond _ _ (Table.merge_eq_ok_iff.mpr ⟨r, rfl, rfl⟩)).2
      exact hdiffer l r (hl.trans hr.symm)
    · intro hties rows hperm u summary hmerge
      have hsame : load.SameRows ⟨load.time, rows⟩ := Load.sameRows_of_perm hperm
      obtain ⟨other, rfl, rfl⟩ := Table.merge_eq_ok_iff.mp hmerge
      refine ⟨(plan.summary_eq other hsame).symm, ?_⟩
      have hversions := plan.applied_perm other hsame rfl fun c hc d hd hkey hwritten =>
        congrArg id (plan.ofStaged_eq other hsame hc hd hkey hties hwritten)
      simpa using hversions

theorem order_free_iff_doubled :
    ∃ t' summary, doubledHistory.merge (.delimited "|") mixedLoad.time mixedLoad.rows =
        .ok (t', summary) ∧
      (∀ rows, rows.Perm mixedLoad.rows →
        ∃ u, doubledHistory.merge (.delimited "|") mixedLoad.time rows = .ok (u, summary) ∧
          (u.versions.map Version.withoutValues).Perm (t'.versions.map Version.withoutValues) ∧
          ((KeyEncoding.delimited "|").Unambiguous →
            CollisionFree (encodedTexts (.delimited "|") [mixedLoad]) →
            (u.versions.map Version.coalesced).Perm (t'.versions.map Version.coalesced))) ∧
      ((∀ rows, rows.Perm mixedLoad.rows →
        ∀ u other, doubledHistory.merge (.delimited "|") mixedLoad.time rows = .ok (u, other) →
          other = summary ∧ u.versions.Perm t'.versions) ↔
        ¬ doubledHistory.Tied (.delimited "|") mixedLoad) := by
  obtain ⟨t', hmerge⟩ := doubledHistory_merged
  exact ⟨t', ⟨2, 1, 1⟩, hmerge, order_free_iff doubledHistory t' _ mixedLoad _ hmerge⟩

/-- A key with a missing and with an empty attribute. -/
def tiedLoad : Load := ⟨10, [⟨[some "1"], [none]⟩, ⟨[some "1"], [some ""]⟩]⟩

/-- The two rows of `tiedLoad` have the same digests, and the first one is
stored, so the history depends on their order. -/
theorem order_decides_stored_value :
    ∃ t u summary,
      (Table.empty 1 1).merge .standard tiedLoad.time tiedLoad.rows = .ok (t, summary) ∧
      (Table.empty 1 1).merge .standard tiedLoad.time tiedLoad.rows.reverse = .ok (u, summary) ∧
      tiedLoad.rows.reverse.Perm tiedLoad.rows ∧ ¬ u.versions.Perm t.versions := by
  have hleft : ((Table.empty 1 1).merge .standard tiedLoad.time tiedLoad.rows).map
      (fun r => (r.2, r.1.versions.map Version.attributes)) = .ok (⟨1, 0, 0⟩, [[none]]) := by
    decide +kernel
  have hright : ((Table.empty 1 1).merge .standard tiedLoad.time tiedLoad.rows.reverse).map
      (fun r => (r.2, r.1.versions.map Version.attributes)) = .ok (⟨1, 0, 0⟩, [[some ""]]) := by
    decide +kernel
  obtain ⟨⟨t, summary⟩, ht, hl⟩ := map_eq_ok_iff.mp hleft
  obtain ⟨⟨u, other⟩, hu, hr⟩ := map_eq_ok_iff.mp hright
  obtain ⟨rfl, htValues⟩ := Prod.mk.inj hl
  obtain ⟨rfl, huValues⟩ := Prod.mk.inj hr
  refine ⟨t, u, _, ht, hu, List.reverse_perm _, fun hperm => ?_⟩
  have hvalues := hperm.map Version.attributes
  rw [htValues, huValues] at hvalues
  exact absurd hvalues (by decide)

end DataVault.History
