/-
DataVault.Proofs.History.Failure — when a merge fails, and what it leaves.

A merge digests every row of the snapshot, and then the attributes of each
current version whose key is in the snapshot. `Table.Refuses` says what a row
can be refused for, in the order in which it is looked at. The stored
attributes could be refused as well, but not by the encoding under which they
were loaded: each version carries attributes that this encoding has digested
before (`Table.Digestible`), whatever has been merged since and whichever of
the merges failed. So the rows of the snapshot decide alone
(`Table.Digestible.merge_eq_error_iff`).

`mergeInPlace` is the merge as a program that overwrites the history as it
goes, in which what was written before a failure would stay written. All that
can fail comes before the first write, so a failure leaves the history as it
was.
-/
import DataVault.Proofs.Digest.Encoding
import DataVault.Proofs.History.Redelivery

namespace DataVault.History

open DataVault.Digest DataVault.Digest.KeyEncoding DataVault.Results

/-! ## 1. Refused rows -/

/-- The error for which a row is refused: that of the first thing that is
wrong with it. -/
inductive Table.Refuses (t : Table) (encoding : KeyEncoding) (row : SnapshotRow) :
    HistoryError → Prop where
  | keyCount (h : row.key.length ≠ t.keyCount) :
      Refuses t encoding row (.arity .businessKey t.keyCount row.key.length)
  | attributeCount (hkey : row.key.length = t.keyCount)
      (h : row.attributes.length ≠ t.attributeCount) :
      Refuses t encoding row (.arity .descriptive t.attributeCount row.attributes.length)
  | keyValue (hkey : row.key.length = t.keyCount)
      (hattributes : row.attributes.length = t.attributeCount)
      {e : Entity.CompileError} (h : FirstFault encoding.Refuses row.key e) :
      Refuses t encoding row (.encoding e)
  | attributeValue (hkey : row.key.length = t.keyCount)
      (hattributes : row.attributes.length = t.attributeCount)
      (hadmitted : ∀ value ∈ row.key, ∀ e, ¬ encoding.Refuses value e)
      {e : Entity.CompileError} (h : FirstFault encoding.Refuses row.attributes e) :
      Refuses t encoding row (.encoding e)

/-- A row with too few or too many values, or with a value in which the
separator of the encoding occurs. -/
def SnapshotRow.Unfit (row : SnapshotRow) (t : Table) (encoding : KeyEncoding) : Prop :=
  row.key.length ≠ t.keyCount ∨ row.attributes.length ≠ t.attributeCount ∨
    ∃ separator, encoding = .delimited separator ∧ separator ≠ "" ∧
      ∃ value ∈ row.key ++ row.attributes, separator.toList <:+: (textOf value).toList

section
variable {t : Table} {encoding : KeyEncoding} {row : SnapshotRow}

theorem Table.checkRow_eq_error_iff {e : HistoryError} :
    t.checkRow row = .error e ↔
      (row.key.length ≠ t.keyCount ∧ .arity .businessKey t.keyCount row.key.length = e) ∨
      (row.key.length = t.keyCount ∧ row.attributes.length ≠ t.attributeCount ∧
        .arity .descriptive t.attributeCount row.attributes.length = e) := by
  unfold Table.checkRow
  by_cases hkey : row.key.length = t.keyCount
  · by_cases hattributes : row.attributes.length = t.attributeCount <;> simp [hkey, hattributes]
  · simp [hkey]

theorem Table.digestOf_eq_error_iff {values : List Value} {e : HistoryError} :
    Table.digestOf encoding values = .error e ↔
      ∃ reason, FirstFault encoding.Refuses values reason ∧ .encoding reason = e := by
  unfold Table.digestOf
  simp only [mapError_eq_error_iff, digest_eq_error_iff]

/-- A tuple has a digest exactly when none of its values is refused. -/
theorem exists_digest_iff {values : List Value} :
    (∃ digest, encoding.digest values = .ok digest) ↔
      ∀ value ∈ values, ∀ e, ¬ encoding.Refuses value e := by
  have hfault : (∃ e, FirstFault encoding.Refuses values e) ↔ _ := exists_firstFault_iff
  simp only [← digest_eq_error_iff] at hfault
  cases hdigest : encoding.digest values with
  | ok digest => simpa [hdigest] using hfault
  | error e => simpa [hdigest] using hfault

/-- A row that cannot be staged is refused. -/
theorem Table.stageRow_eq_error_iff {e : HistoryError} :
    t.stageRow encoding row = .error e ↔ t.Refuses encoding row e := by
  unfold Table.stageRow
  simp only [bind_eq_error_iff, pure_ne_error, and_false, exists_false, or_false,
    Table.checkRow_eq_error_iff, Table.digestOf_eq_error_iff, Table.digestOf_eq_ok_iff]
  constructor
  · rintro ((⟨hkey, rfl⟩ | ⟨hkey, hattributes, rfl⟩) | ⟨⟨⟩, hcheck, hdigests⟩)
    · exact .keyCount hkey
    · exact .attributeCount hkey hattributes
    · obtain ⟨hkey, hattributes⟩ := Table.checkRow_eq_ok_iff.mp hcheck
      rcases hdigests with ⟨_, hfault, rfl⟩ | ⟨hashKey, hdigest, _, hfault, rfl⟩
      · exact .keyValue hkey hattributes hfault
      · exact .attributeValue hkey hattributes (exists_digest_iff.mp ⟨hashKey, hdigest⟩) hfault
  · intro h
    cases h with
    | keyCount hkey => exact .inl (.inl ⟨hkey, rfl⟩)
    | attributeCount hkey hattributes => exact .inl (.inr ⟨hkey, hattributes, rfl⟩)
    | keyValue hkey hattributes hfault =>
      exact .inr ⟨(), Table.checkRow_eq_ok_iff.mpr ⟨hkey, hattributes⟩, .inl ⟨_, hfault, rfl⟩⟩
    | attributeValue hkey hattributes hadmitted hfault =>
      obtain ⟨hashKey, hdigest⟩ := exists_digest_iff.mpr hadmitted
      exact .inr ⟨(), Table.checkRow_eq_ok_iff.mpr ⟨hkey, hattributes⟩,
        .inr ⟨hashKey, hdigest, _, hfault, rfl⟩⟩

/-- A row is refused exactly when it is unfit. -/
theorem Table.exists_refuses_iff : (∃ e, t.Refuses encoding row e) ↔ row.Unfit t encoding := by
  unfold SnapshotRow.Unfit
  constructor
  · rintro ⟨e, h⟩
    cases h with
    | keyCount hkey => exact .inl hkey
    | attributeCount hkey hattributes => exact .inr (.inl hattributes)
    | keyValue hkey hattributes hfault =>
      obtain ⟨value, hvalue, _, separator, hencoding, hne, hoccurs, -⟩ :=
        exists_firstFault_iff.mp ⟨_, hfault⟩
      exact .inr (.inr ⟨separator, hencoding, hne, value, List.mem_append_left _ hvalue, hoccurs⟩)
    | attributeValue hkey hattributes hadmitted hfault =>
      obtain ⟨value, hvalue, _, separator, hencoding, hne, hoccurs, -⟩ :=
        exists_firstFault_iff.mp ⟨_, hfault⟩
      exact .inr (.inr ⟨separator, hencoding, hne, value, List.mem_append_right _ hvalue, hoccurs⟩)
  · intro h
    -- What is wrong first is found by going through the checks in their order.
    by_cases hkey : row.key.length = t.keyCount
    swap
    · exact ⟨_, .keyCount hkey⟩
    by_cases hattributes : row.attributes.length = t.attributeCount
    swap
    · exact ⟨_, .attributeCount hkey hattributes⟩
    obtain ⟨separator, hencoding, hne, value, hvalue, hoccurs⟩ :=
      (h.resolve_left (not_not_intro hkey)).resolve_left (not_not_intro hattributes)
    have hrefused : encoding.Refuses value (.ambiguousKeyDelimiter separator (textOf value)) :=
      ⟨separator, hencoding, hne, hoccurs, rfl⟩
    by_cases hadmitted : ∀ value ∈ row.key, ∀ e, ¬ encoding.Refuses value e
    · have hmem : value ∈ row.attributes := (List.mem_append.mp hvalue).resolve_left
        fun hmem => hadmitted value hmem _ hrefused
      obtain ⟨e, hfault⟩ := exists_firstFault_iff.mpr ⟨value, hmem, _, hrefused⟩
      exact ⟨_, .attributeValue hkey hattributes hadmitted hfault⟩
    · have hsome : ∃ value ∈ row.key, ∃ e, encoding.Refuses value e := by
        simpa only [not_forall, not_not, exists_prop] using hadmitted
      obtain ⟨e, hfault⟩ := exists_firstFault_iff.mpr hsome
      exact ⟨_, .keyValue hkey hattributes hfault⟩

end

/-! ## 2. Stored attributes -/

/-- The attributes of all versions can be digested. -/
def Table.Digestible (t : Table) (encoding : KeyEncoding) : Prop :=
  ∀ v ∈ t.versions, ∃ digest, encoding.digest v.attributes = .ok digest

/-- Attributes that are stored have been digested when they were staged. -/
theorem Plan.digestible {t : Table} {encoding : KeyEncoding} {snapshot : List SnapshotRow}
    (plan : Plan t encoding snapshot) (now : Int) (h : t.Digestible encoding) :
    (plan.result now).Digestible encoding := by
  intro v hv
  rcases Plan.mem_result hv with ⟨old, hold, rfl⟩ | ⟨c, hc, rfl⟩
  · rw [Version.settle_attributes]
    exact h old hold
  · exact ⟨c.1.hashDiff, (plan.rows_staged c.1 (plan.staged_mem hc)).hashDiff⟩

/-- One encoding can digest what it has stored, whichever of its merges
failed. -/
theorem digestible_mergeEach (encoding : KeyEncoding) {t : Table} (hsuccessive : t.Successive)
    (h : t.Digestible encoding) (loads : List Load) :
    (t.mergeEach (loads.map (Attempt.mk encoding))).Digestible encoding := by
  induction loads generalizing t with
  | nil => exact h
  | cons load loads ih =>
    refine ih (hsuccessive.mergeOrKeep ⟨encoding, load⟩) ?_
    unfold Table.mergeOrKeep
    split
    · next merged summary hmerge =>
      obtain ⟨plan, rfl, -⟩ := Table.merge_eq_ok_iff.mp hmerge
      rw [plan.foldl_eq_result _ hsuccessive.singleCurrent]
      exact plan.digestible _ h
    · exact h

/-- No staged row fails for what is stored. -/
theorem Table.Digestible.effectOf_ne_error {t : Table} {encoding : KeyEncoding}
    (h : t.Digestible encoding) (s : Staged) (e : HistoryError) :
    t.effectOf encoding s ≠ .error e := by
  have hcurrent : ∀ v, t.current? s.hashKey = some v →
      ∃ digest, encoding.digest v.attributes = .ok digest :=
    fun v hv => h v (List.mem_of_find?_eq_some hv)
  obtain ⟨effect, hfits⟩ := exists_fits_iff.mpr hcurrent
  rw [Table.effectOf_eq_ok_iff.mpr hfits]
  nofun

/-- A merge fails for the first row that is refused, and for nothing else. -/
theorem Table.Digestible.merge_eq_error_iff {t : Table} {encoding : KeyEncoding}
    (h : t.Digestible encoding) {now : Int} {snapshot : List SnapshotRow} {e : HistoryError} :
    t.merge encoding now snapshot = .error e ↔ FirstFault (t.Refuses encoding) snapshot e := by
  have heffects : ∀ (rows : List Staged) (e : HistoryError),
      ¬ FirstFault (fun s e => t.effectOf encoding s = .error e) rows e := by
    intro rows e hfault
    obtain ⟨s, -, e', hs⟩ := exists_firstFault_iff.mp ⟨e, hfault⟩
    exact h.effectOf_ne_error s e' hs
  unfold Table.merge
  simp only [bind_eq_error_iff, pure_ne_error, and_false, exists_false, or_false,
    mapM_eq_error_iff, heffects, Table.stageRow_eq_error_iff]

/-! ## 3. In place -/

/-- A step that reads the history and can fail. -/
def reading {α : Type} (f : Table → Except HistoryError α) : EStateM HistoryError Table α :=
  fun t =>
    match f t with
    | .ok a => .ok a t
    | .error e => .error e t

/-- The merge of a snapshot into the history that is at hand. Each step reads
or overwrites it. -/
def mergeInPlace (encoding : KeyEncoding) (now : Int) (snapshot : List SnapshotRow) :
    EStateM HistoryError Table Summary := do
  let rows ← snapshot.mapM fun row => reading fun t => t.stageRow encoding row
  let effects ← (stagedOf rows).mapM fun s => reading fun t => t.effectOf encoding s
  ((stagedOf rows).zip effects).forM fun change => modify fun t => t.apply now change
  pure (.ofEffects effects)

theorem mapM_reading {α β : Type} (f : Table → α → Except HistoryError β) (as : List α) :
    (as.mapM fun a => reading fun t => f t a) = reading fun t => as.mapM (f t) := by
  induction as with
  | nil => rfl
  | cons a as ih =>
    funext t
    rw [List.mapM_cons, ih]
    simp only [reading, List.mapM_cons, bind, EStateM.bind]
    cases f t a with
    | error e => rfl
    | ok b =>
      simp only [Except.bind]
      cases as.mapM (f t) <;> rfl

theorem forM_modify {α : Type} (f : Table → α → Table) (as : List α) (t : Table) :
    (as.forM fun a => (modify fun t => f t a : EStateM HistoryError Table Unit)) t =
      .ok () (as.foldl f t) := by
  induction as generalizing t with
  | nil => rfl
  | cons a as ih => exact ih (f t a)

/-- The merge in place leaves what the merge gives, and the history as it was
where the merge fails. -/
theorem run_mergeInPlace (encoding : KeyEncoding) (now : Int) (snapshot : List SnapshotRow)
    (t : Table) :
    (mergeInPlace encoding now snapshot).run t =
      match t.merge encoding now snapshot with
      | .ok (merged, summary) => .ok summary merged
      | .error e => .error e t := by
  unfold mergeInPlace Table.merge
  simp only [mapM_reading, EStateM.run, reading, bind, EStateM.bind, Except.bind]
  cases snapshot.mapM (t.stageRow encoding) with
  | error e => rfl
  | ok rows =>
    simp only
    cases (stagedOf rows).mapM (t.effectOf encoding) with
    | error e => rfl
    | ok effects =>
      simp only [forM_modify]
      rfl

theorem run_mergeInPlace_eq_error_iff {encoding : KeyEncoding} {now : Int}
    {snapshot : List SnapshotRow} {t left : Table} {e : HistoryError} :
    (mergeInPlace encoding now snapshot).run t = .error e left ↔
      t.merge encoding now snapshot = .error e ∧ left = t := by
  rw [run_mergeInPlace]
  cases t.merge encoding now snapshot with
  | ok merged => simp
  | error e' => simp [eq_comm]

/-! ## 4. Failing merges -/

/-- When a merge into a history fails, with which error, and what it leaves. -/
structure Table.FailsForRows (t : Table) (encoding : KeyEncoding) (now : Int)
    (snapshot : List SnapshotRow) : Prop where
  fails_iff : (∃ e, t.merge encoding now snapshot = .error e) ↔
    ∃ row ∈ snapshot, row.Unfit t encoding
  /-- The error is that of the first row that is refused. -/
  error_iff : ∀ e, t.merge encoding now snapshot = .error e ↔
    FirstFault (t.Refuses encoding) snapshot e
  /-- A merge in place that fails leaves the history as it was. -/
  unchanged : ∀ e left, (mergeInPlace encoding now snapshot).run t = .error e left ↔
    t.merge encoding now snapshot = .error e ∧ left = t
  /-- What is stored can be digested once more. -/
  digestible : t.Digestible encoding

/-- A merge into a history that merges under one encoding have reached, some of
which may have failed, fails exactly when a row of the snapshot has too few or
too many values or holds the separator. The error is that of the first such row:
the count of its key, then that of its attributes, then the values of its key,
then its attributes. The history stays as it was. -/
theorem merge_fails_for_rows (keyCount attributeCount : Nat) (encoding : KeyEncoding)
    (loads : List Load) (now : Int) (snapshot : List SnapshotRow) :
    ((Table.empty keyCount attributeCount).mergeEach
      (loads.map (Attempt.mk encoding))).FailsForRows encoding now snapshot := by
  have hstored := digestible_mergeEach encoding (successive_empty keyCount attributeCount)
    (List.forall_mem_nil _) loads
  refine ⟨?_, fun e => hstored.merge_eq_error_iff, fun e left => run_mergeInPlace_eq_error_iff,
    hstored⟩
  simp only [hstored.merge_eq_error_iff, exists_firstFault_iff, Table.exists_refuses_iff]

end DataVault.History
