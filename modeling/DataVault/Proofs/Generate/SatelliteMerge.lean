/-
DataVault.Proofs.Generate.SatelliteMerge — a satellite's merge leaves the
history that the merge in memory leaves.

A vault row matches the merged row that has its key, if it is current, and
never a row without a key. So it is matched at most once, and closed when
its attributes differ: this is `Version.settle` (`exists_mergedRow`). A
merged row is inserted when nothing matches it, which is so for a new key
and for the second copy of a changed row, and the row that is inserted is
the first version of its staged row (`storedAs_inserted`).

`merge_simulates` puts this together for every satellite that is generated
and every history that is reached.
-/
import DataVault.Proofs.Generate.SatelliteSource
import Mathlib.Data.List.Perm.Basic

namespace DataVault.Generate

open DataVault.Artifact DataVault.Digest DataVault.Entity DataVault.History DataVault.Lists
  DataVault.Results DataVault.Sql DataVault.Warehouse

/-! ## 1. Closed versions -/

/-- Texts are read as before in a row that has kept their columns. -/
theorem HasTexts.congr {row other : Row} : ∀ {columns : List Ident} {values : List (Option String)},
    HasTexts row columns values →
    (∀ column ∈ columns, other.read? column = row.read? column) → HasTexts other columns values
  | [], [], _, _ => .nil
  | column :: columns, value :: values, h, hkept => by
      obtain ⟨hvalue, hvalues⟩ := List.forall₂_cons.mp h
      obtain ⟨hcolumn, hcolumns⟩ := List.forall_mem_cons.mp hkept
      exact .cons (hcolumn.trans hvalue) (HasTexts.congr hvalues hcolumns)

section
variable {s : Settings} {spec : EntitySpec} {n : SatelliteNames} (hs : WellNamed s spec n)
include hs

/-- A vault column has not the name of another column. -/
theorem WellNamed.column_ne {column name : Ident} (hcolumn : column ∈ s.columns.all)
    (hname : name ∈ n.all ++ spec.descriptive) : column.sameName name = false :=
  sameName_eq_false_symm ((List.pairwise_append.mp hs.distinct).2.2 name hname column hcolumn)

/-- Setting the current flag and the end of a version closes it. -/
theorem exists_closed {session : Session} {row : Row} {v : Version}
    (h : StoredAs s spec n session row v) (now : Int) :
    ∃ closed, [(s.columns.isCurrent, Datum.bool false),
        (s.columns.effectiveEnd, s.stamp session now)].foldlM
          (fun row c => Row.set? row c.1 c.2) row = some closed ∧
      StoredAs s spec n session closed (v.close now) := by
  have hcolumns : DistinctFields s.columns.all := (List.pairwise_append.mp hs.distinct).2.1
  simp only [DistinctFields, VaultColumns.all, List.pairwise_cons, List.forall_mem_cons,
    List.not_mem_nil, false_imp_iff, implies_true, and_true, List.Pairwise.nil] at hcolumns
  obtain ⟨⟨-, -, hloadFlag, -, hloadEnd⟩, -, ⟨hdiffFlag, -, hdiffEnd⟩, ⟨hflagStart, hflagEnd⟩,
    hstartEnd⟩ := hcolumns
  have hdistinct : DistinctFields [s.columns.isCurrent, s.columns.effectiveEnd] :=
    List.pairwise_pair.mpr hflagEnd
  have hread : ∀ c ∈ [(s.columns.isCurrent, Datum.bool false),
      (s.columns.effectiveEnd, s.stamp session now)], ∃ old, row.read? c.1 = some old := by
    simp [h.isCurrent, h.endsAt]
  obtain ⟨closed, hclosed, hset, hkept⟩ := Row.exists_setAll hread hdistinct
  simp only [List.forall_mem_cons, List.not_mem_nil, false_imp_iff, implies_true, and_true]
    at hset hkept
  have hfield : ∀ name ∈ n.all ++ spec.descriptive, closed.read? name = row.read? name :=
    fun name hname => hkept name
      ⟨hs.column_ne (by simp [VaultColumns.all]) hname,
        hs.column_ne (by simp [VaultColumns.all]) hname⟩
  refine ⟨closed, hclosed, ?_⟩
  constructor
  · exact (hfield n.hashKey (by simp [SatelliteNames.all])).trans h.hashKey
  · exact h.key.congr fun name hname => hfield name (by simp [SatelliteNames.all, hname])
  · exact h.attributes.congr fun name hname => hfield name (by simp [hname])
  · exact (hkept _ ⟨sameName_eq_false_symm hdiffFlag, sameName_eq_false_symm hdiffEnd⟩).trans
      h.hashDiff
  · exact (hkept _ ⟨sameName_eq_false_symm hloadFlag, sameName_eq_false_symm hloadEnd⟩).trans
      h.loadedAt
  · exact hset.1
  · exact (hkept _ ⟨hflagStart, sameName_eq_false_symm hstartEnd⟩).trans h.startsAt
  · exact hset.2

end

/-! ## 2. Inserted versions -/

/-- The columns of an inserted version read as the first version of its
staged row. -/
theorem storedAs_inserted {s : Settings} {spec : EntitySpec} {n : SatelliteNames}
    (hs : WellNamed s spec n) {session : Session} {r : Staged} (hr : Filled spec r.row)
    (now : Int) :
    StoredAs s spec n session (Row.named (insertedColumns s spec n (s.stamp session now) r))
      (.ofStaged now r) := by
  have hread : ∀ {name : Ident} {datum : Datum},
      (name, datum) ∈ insertedColumns s spec n (s.stamp session now) r →
      (Row.named (insertedColumns s spec n (s.stamp session now) r)).read? name = some datum := by
    intro name datum hc
    have hnamed := Row.read?_named (insertedColumns_distinct hs hr) hc
    exact hnamed
  constructor
  · exact hread (by simp [insertedColumns, stagedColumns, Version.ofStaged])
  · refine hasTexts_of_zip (hr.key.trans hs.width.symm) fun c hc => hread ?_
    simp only [insertedColumns, stagedColumns, List.mem_append, List.mem_cons]
    exact .inl (.inl (.inl (.inr hc)))
  · refine hasTexts_of_zip hr.attributes fun c hc => hread ?_
    simp only [insertedColumns, stagedColumns, List.mem_append]
    exact .inl (.inl (.inr hc))
  · exact hread (by simp [insertedColumns, stagedColumns, Version.ofStaged])
  · exact hread (by simp [insertedColumns, stagedColumns, Version.ofStaged])
  · exact hread (by simp [insertedColumns, Version.ofStaged])
  · exact hread (by simp [insertedColumns, Version.ofStaged])
  · exact hread (by simp [insertedColumns, Version.ofStaged])

/-- A merged row is inserted with these columns. -/
theorem insertedRows_keyedRow {s : Settings} {spec : EntitySpec} {n : SatelliteNames}
    {db : Database} (hs : WellNamed s spec n) {stamp : Datum} {m : Option String × Staged}
    (hm : Filled spec m.2.row) :
    insertedRows db [(sourceName, keyedRow s spec n stamp m)]
        (mergeStatement s spec n).clauses =
      some [Row.named (insertedColumns s spec n stamp m.2)] := by
  have hread : ∀ {name : Ident} {datum : Datum}, (name, datum) ∈ stagedColumns s spec n stamp m.2 →
      eval db.toSession (Scope.read [(sourceName, keyedRow s spec n stamp m)])
        (.of sourceName name) = some datum := by
    intro name datum hc
    rw [Expr.of, eval, Scope.read_single]
    exact read?_keyedRow hs hm (List.mem_cons_of_mem _ hc)
  have hnames : insertedVersion s spec n =
      ((stagedColumns s spec n stamp m.2).map fun c => takenOver c.1) ++
        [⟨s.columns.isCurrent, .bool true⟩,
          ⟨s.columns.effectiveStart, .of sourceName s.columns.loadTime⟩,
          ⟨s.columns.effectiveEnd, .null⟩] := by
    unfold insertedVersion
    rw [← @stagedColumns_names s spec n stamp hs m.2 hm, List.map_map]
    rfl
  have hassigned : assigned db [(sourceName, keyedRow s spec n stamp m)]
      (insertedVersion s spec n) = some (insertedColumns s spec n stamp m.2) := by
    unfold assigned
    rw [mapM_eq_some_iff, hnames]
    unfold insertedColumns
    refine List.rel_append ?_ (.cons rfl (.cons ?_ (.cons rfl .nil)))
    · rw [List.forall₂_map_left_iff, List.forall₂_same]
      intro c hc
      rw [takenOver, hread hc]
      rfl
    · rw [hread (loadTime_mem_staged m.2)]
      rfl
  simp only [mergeStatement, insertedRows, hassigned, Option.bind_eq_bind, Option.bind_some,
    Option.pure_def]
  rfl

/-! ## 3. Matches -/

/-- A merged row matches a version by its key, and none without a key. -/
def matchesVersion (v : Version) (m : Option String × Staged) : Bool :=
  m.1.any fun hashKey => v.isCurrentOf hashKey

/-- A merged row is new if its key, should it have one, has no current
version. -/
def isNew (t : Table) (m : Option String × Staged) : Bool :=
  m.1.all fun hashKey => (t.current? hashKey).isNone

theorem targetName_ne_sourceName : targetName.sameName sourceName = false := by decide

/-- A column of the vault row, read beside a merged row. -/
theorem read_ofTarget {s : Settings} {spec : EntitySpec} {n : SatelliteNames} (row merged : Row)
    (name : Ident) :
    Scope.read (pairScope (mergeStatement s spec n) row merged) (some targetName) name =
      row.read? name :=
  Scope.read_left targetName_ne_sourceName row merged name

/-- Only the rows with a key match. -/
theorem filter_matchesVersion (v : Version) (changes : List (Staged × Effect)) :
    (mergedRows changes).filter (matchesVersion v) =
      (changes.filter fun c => v.isCurrentOf c.1.hashKey).map fun c => (some c.1.hashKey, c.1) := by
  unfold mergedRows
  rw [List.filter_append, List.filter_map, List.filter_map]
  have hnull : (changes.filter fun c => c.2 = .replace).filter
      (matchesVersion v ∘ fun c => (none, c.1)) = [] :=
    List.filter_eq_nil_iff.mpr fun _ _ => Bool.false_ne_true
  rw [hnull, List.map_nil, List.append_nil]
  rfl

namespace Prepared

variable {s : Settings} {spec : EntitySpec} {n : SatelliteNames} {db : Database} {t : Table}
  {source : List (Row × Staged)} {stored : List (Row × Version)}
  {changes : List (Staged × Effect)} (h : Prepared s spec n db t source stored changes)
include h

theorem filled_merged {m : Option String × Staged} (hm : m ∈ mergedRows changes) :
    Filled spec m.2.row := by
  obtain ⟨c, hc, hrow⟩ := mem_mergedRows hm
  exact hrow ▸ h.filled hc

/-- A column of the merged row, read beside a vault row. -/
theorem eval_ofSource {m : Option String × Staged} (hm : m ∈ mergedRows changes) (row : Row)
    (stamp : Datum) {datum : Datum} {name : Ident}
    (hc : (name, datum) ∈ mergedColumns s spec n stamp (.ofText? m.1) m.2) :
    eval db.toSession (Scope.read (pairScope (mergeStatement s spec n) row
      (keyedRow s spec n stamp m))) (.of sourceName name) = some datum := by
  rw [Expr.of, eval]
  refine (Scope.read_right targetName_ne_sourceName _ _ _).trans ?_
  exact read?_keyedRow h.wellNamed (h.filled_merged hm) hc

/-- The condition of the merge compares a vault row with a merged row. -/
theorem pairs_eq {p : Row × Version} (hp : p ∈ stored) {m : Option String × Staged}
    (hm : m ∈ mergedRows changes) (stamp : Datum) :
    pairs db (mergeStatement s spec n) p.1 (keyedRow s spec n stamp m) =
      some (matchesVersion p.2 m) := by
  have hkey := h.eval_ofSource hm p.1 stamp List.mem_cons_self
  have hhash : Scope.read (pairScope (mergeStatement s spec n) p.1 (keyedRow s spec n stamp m))
      (some targetName) n.hashKey = some (.text p.2.hashKey) := by
    rw [read_ofTarget]
    exact (h.storedAs p hp).hashKey
  have hcurrent : Scope.read (pairScope (mergeStatement s spec n) p.1 (keyedRow s spec n stamp m))
      (some targetName) s.columns.isCurrent = some (.bool p.2.isCurrent) := by
    rw [read_ofTarget]
    exact (h.storedAs p hp).isCurrent
  unfold pairs matchesVersion
  obtain ⟨key, r⟩ := m
  cases key with
  | none => exact holds_currentVersionOf_null hhash hcurrent hkey
  | some hashKey => exact holds_currentVersionOf hhash hcurrent hkey

/-- A current version whose key is changed is the one that the change was
planned for. -/
theorem current?_eq {p : Row × Version} (hp : p ∈ stored) {hashKey : String}
    (hcurrent : p.2.isCurrentOf hashKey = true) : t.current? hashKey = some p.2 := by
  have hmem : p.2 ∈ (stored.map Prod.snd).filter (Version.isCurrentOf hashKey) :=
    List.mem_filter.mpr ⟨List.mem_map_of_mem hp, hcurrent⟩
  rw [h.current] at hmem
  exact Option.mem_toList.mp hmem

/-- The attributes of a matched version differ if it is replaced. -/
theorem differs_eq_replace {p : Row × Version} (hp : p ∈ stored) {c : Staged × Effect}
    (hc : c ∈ changes) (hcurrent : p.2.isCurrentOf c.1.hashKey = true) :
    differs s.keyEncoding c.1.hashDiff p.2 = decide (c.2 = .replace) := by
  have hversion := h.current?_eq hp hcurrent
  obtain ⟨r, e⟩ := c
  cases h.fits _ hc with
  | insert hnone =>
    rw [hversion] at hnone
    cases hnone
  | keep hsome hdigest =>
    obtain rfl := Option.some.inj (hversion.symm.trans hsome)
    simp [differs_eq hdigest]
  | replace hsome hdigest hne =>
    obtain rfl := Option.some.inj (hversion.symm.trans hsome)
    simp [differs_eq hdigest, hne]

/-- The condition of the update is that the version is replaced. -/
theorem holds_update {p : Row × Version} (hp : p ∈ stored) {c : Staged × Effect}
    (hc : c ∈ changes) (hcurrent : p.2.isCurrentOf c.1.hashKey = true) (stamp : Datum) :
    holds db.toSession (Scope.read (pairScope (mergeStatement s spec n) p.1
        (keyedRow s spec n stamp (some c.1.hashKey, c.1))))
        (changedFrom s spec targetName (.of sourceName s.columns.hashDiff)) =
      some (decide (c.2 = .replace)) := by
  rw [← h.differs_eq_replace hp hc hcurrent]
  have hattributes := (h.storedAs p hp).attributes
  refine holds_changedFrom h.wellNamed (hattributes.imp fun name value hvalue => ?_) ?_
  · rw [read_ofTarget]
    exact hvalue
  · exact h.eval_ofSource (keyed_mem_mergedRows hc) p.1 stamp
      (List.mem_cons_of_mem _ (hashDiff_mem_staged c.1))

/-- What the update sets. -/
theorem assigned_closed {c : Staged × Effect} (hc : c ∈ changes) (row : Row) (stamp : Datum) :
    assigned db (pairScope (mergeStatement s spec n) row
        (keyedRow s spec n stamp (some c.1.hashKey, c.1))) (closedVersion s) =
      some [(s.columns.isCurrent, .bool false), (s.columns.effectiveEnd, stamp)] := by
  have hload := h.eval_ofSource (keyed_mem_mergedRows hc) row stamp
    (List.mem_cons_of_mem _ (loadTime_mem_staged c.1))
  unfold assigned
  rw [mapM_eq_some_iff]
  refine .cons rfl (.cons ?_ .nil)
  rw [hload]
  rfl

/-- A matched version is closed if its attributes differ. -/
theorem exists_updateRow {p : Row × Version} (hp : p ∈ stored) {c : Staged × Effect}
    (hc : c ∈ changes) (hcurrent : p.2.isCurrentOf c.1.hashKey = true) :
    ∃ row, updateRow db
        (pairScope (mergeStatement s spec n) p.1
          (keyedRow s spec n (s.stamp db.toSession db.now) (some c.1.hashKey, c.1)))
        p.1 (mergeStatement s spec n).clauses = some row ∧
      StoredAs s spec n db.toSession row
        (if c.2 = .replace then p.2.close db.now else p.2) := by
  have hstored := h.storedAs p hp
  have happlies := h.holds_update hp hc hcurrent (s.stamp db.toSession db.now)
  have hassigned := h.assigned_closed hc p.1 (s.stamp db.toSession db.now)
  simp only [mergeStatement, updateRow] at happlies hassigned ⊢
  by_cases hreplace : c.2 = .replace
  · obtain ⟨closed, hclosed, hclosedAs⟩ := exists_closed h.wellNamed hstored db.now
    refine ⟨closed, ?_, ?_⟩
    · simp only [happlies, hassigned, hreplace, hclosed, Option.bind_eq_bind, Option.bind_some,
        decide_true, if_true]
    · rw [if_pos hreplace]
      exact hclosedAs
  · refine ⟨p.1, ?_, ?_⟩
    · simp only [happlies, hreplace, Option.bind_eq_bind, Option.bind_some, decide_false,
        Bool.false_eq_true, if_false]
    · rw [if_neg hreplace]
      exact hstored

/-- A vault row becomes the version that the merge in memory leaves. -/
theorem exists_mergedRow {p : Row × Version} (hp : p ∈ stored) :
    ∃ row, mergedRow db (mergeStatement s spec n)
        ((mergedRows changes).map (keyedRow s spec n (s.stamp db.toSession db.now))) p.1 =
          some row ∧
      StoredAs s spec n db.toSession row (p.2.settle db.now (replacedKeys changes)) := by
  have hkept : keepWhere (pairs db (mergeStatement s spec n) p.1)
      ((mergedRows changes).map (keyedRow s spec n (s.stamp db.toSession db.now))) =
      some (((mergedRows changes).filter (matchesVersion p.2)).map
        (keyedRow s spec n (s.stamp db.toSession db.now))) :=
    keepWhere_map fun m hm => h.pairs_eq hp hm _
  rw [filter_matchesVersion] at hkept
  by_cases hmatched : ∃ c ∈ changes, p.2.isCurrentOf c.1.hashKey = true
  · obtain ⟨c, hc, hcurrent⟩ := hmatched
    have honly : changes.filter (fun c => p.2.isCurrentOf c.1.hashKey) = [c] := by
      refine filter_eq_singleton (h.distinct.imp fun hab ha hb => hab ?_) hc hcurrent
      exact (Version.isCurrentOf_iff.mp ha).2.symm.trans (Version.isCurrentOf_iff.mp hb).2
    obtain ⟨row, hrow, hstored⟩ := h.exists_updateRow hp hc hcurrent
    refine ⟨row, ?_, ?_⟩
    · rw [honly] at hkept
      unfold mergedRow
      rw [hkept]
      exact hrow
    · obtain ⟨hflag, hkey⟩ := Version.isCurrentOf_iff.mp hcurrent
      have hreplaced : p.2.hashKey ∈ replacedKeys changes ↔ c.2 = .replace := by
        rw [hkey]
        exact hashKey_mem_replacedKeys h.distinct hc
      simpa [Version.settle, hflag, hreplaced] using hstored
  · have hnone : changes.filter (fun c => p.2.isCurrentOf c.1.hashKey) = [] :=
      List.filter_eq_nil_iff.mpr fun c hc hcurrent => hmatched ⟨c, hc, hcurrent⟩
    refine ⟨p.1, ?_, ?_⟩
    · rw [hnone] at hkept
      unfold mergedRow
      rw [hkept]
      rfl
    · have hkept : ¬ (p.2.isCurrent = true ∧ p.2.hashKey ∈ replacedKeys changes) := by
        rintro ⟨hflag, hmem⟩
        obtain ⟨c, hc, -, hkey⟩ := mem_replacedKeys.mp hmem
        exact hmatched ⟨c, hc, Version.isCurrentOf_iff.mpr ⟨hflag, hkey.symm⟩⟩
      rw [Version.settle, if_neg hkept]
      exact h.storedAs p hp

/-! ## 4. The merge -/

/-- A merged row matches nothing if its key has no current version. -/
theorem unmatched_eq {m : Option String × Staged} (hm : m ∈ mergedRows changes) (stamp : Datum) :
    unmatched db (mergeStatement s spec n) (stored.map Prod.fst)
        (keyedRow s spec n stamp m) =
      some (isNew t m) := by
  have hkept : keepWhere (fun row => pairs db (mergeStatement s spec n) row
        (keyedRow s spec n stamp m)) (stored.map Prod.fst) =
      some ((stored.filter fun p => matchesVersion p.2 m).map Prod.fst) :=
    keepWhere_map fun p hp => h.pairs_eq hp hm stamp
  unfold unmatched
  rw [hkept]
  refine congrArg some ?_
  rw [List.isEmpty_map]
  obtain ⟨key, r⟩ := m
  cases key with
  | none =>
    have hnone : stored.filter (fun p => matchesVersion p.2 (none, r)) = [] :=
      List.filter_eq_nil_iff.mpr fun _ _ => Bool.false_ne_true
    rw [hnone]
    rfl
  | some hashKey =>
    have hcurrent := congrArg List.isEmpty (h.current hashKey)
    rw [List.filter_map, List.isEmpty_map] at hcurrent
    refine hcurrent.trans ?_
    show (t.current? hashKey).toList.isEmpty = (t.current? hashKey).isNone
    cases t.current? hashKey <;> rfl

/-- The new rows are those of new keys and the second copies of changed
ones. -/
theorem filter_new :
    (mergedRows changes).filter (isNew t) =
      ((changes.filter fun c => c.2 = .insert).map fun c => (some c.1.hashKey, c.1)) ++
        (changes.filter fun c => c.2 = .replace).map fun c => (none, c.1) := by
  unfold mergedRows
  rw [List.filter_append, List.filter_map, List.filter_map]
  congr 2
  · refine List.filter_congr fun c hc => ?_
    show (t.current? c.1.hashKey).isNone = decide (c.2 = .insert)
    obtain ⟨r, e⟩ := c
    cases h.fits _ hc with
    | insert hnone => simp [hnone]
    | keep hsome _ => simp [hsome]
    | replace hsome _ _ => simp [hsome]
  · exact List.filter_eq_self.mpr fun _ _ => rfl

/-- The new rows are inserted as first versions. -/
theorem exists_insertedRows :
    ∃ inserted, (((mergedRows changes).filter (isNew t)).map
        (keyedRow s spec n (s.stamp db.toSession db.now))).mapM
          (fun row => insertedRows db [((mergeStatement s spec n).sourceAlias, row)]
            (mergeStatement s spec n).clauses) = some inserted ∧
      List.Forall₂ (StoredAs s spec n db.toSession) inserted.flatten
        (((mergedRows changes).filter (isNew t)).map fun m => .ofStaged db.now m.2) := by
  have hfilled : ∀ m ∈ (mergedRows changes).filter (isNew t), Filled spec m.2.row :=
    fun m hm => h.filled_merged (List.mem_of_mem_filter hm)
  refine ⟨((mergedRows changes).filter (isNew t)).map fun m =>
    [Row.named (insertedColumns s spec n (s.stamp db.toSession db.now) m.2)], ?_, ?_⟩
  · rw [List.mapM_map]
    exact mapM_eq_some_map fun m hm => insertedRows_keyedRow h.wellNamed (hfilled m hm)
  · rw [← List.flatMap_def, ← List.map_eq_flatMap, List.forall₂_map_left_iff,
      List.forall₂_map_right_iff, List.forall₂_same]
    exact fun m hm => storedAs_inserted h.wellNamed (hfilled m hm) db.now

/-- The merge leaves the settled versions, and the new ones. -/
theorem exists_mergeRows :
    ∃ rows, mergeRows db (mergeStatement s spec n) = some rows ∧
      List.Forall₂ (StoredAs s spec n db.toSession) rows
        ((stored.map fun p => p.2.settle db.now (replacedKeys changes)) ++
          ((mergedRows changes).filter (isNew t)).map fun m => .ofStaged db.now m.2) := by
  obtain ⟨kept, hkept, hkeptAs⟩ := exists_mapM_eq_some fun p hp => h.exists_mergedRow hp
  have hnew : keepWhere (unmatched db (mergeStatement s spec n) (stored.map Prod.fst))
      ((mergedRows changes).map (keyedRow s spec n (s.stamp db.toSession db.now))) =
      some (((mergedRows changes).filter (isNew t)).map
        (keyedRow s spec n (s.stamp db.toSession db.now))) :=
    keepWhere_map fun m hm => h.unmatched_eq hm (s.stamp db.toSession db.now)
  obtain ⟨inserted, hinserted, hinsertedAs⟩ := h.exists_insertedRows
  refine ⟨_, ?_, List.rel_append (List.forall₂_map_right_iff.mpr (hkeptAs.flip)) hinsertedAs⟩
  have htarget : db.contents (mergeStatement s spec n).target = some (stored.map Prod.fst) :=
    h.vaultRows
  have hsource : queryRows db [] (mergeStatement s spec n).source =
      some ((mergedRows changes).map (keyedRow s spec n (s.stamp db.toSession db.now))) :=
    h.queryRows_mergeSource
  have hmapped : (stored.map Prod.fst).mapM (mergedRow db (mergeStatement s spec n)
      ((mergedRows changes).map (keyedRow s spec n (s.stamp db.toSession db.now)))) =
        some kept := by
    rw [List.mapM_map]
    exact hkept
  simp only [mergeRows, htarget, hsource, hmapped, hnew, hinserted, Option.bind_eq_bind,
    Option.bind_some, Option.pure_def]

end Prepared

/-- The new versions are those that are written, in another order. -/
theorem written_perm {s : Settings} {spec : EntitySpec} {n : SatelliteNames} {db : Database}
    {t : Table} {source : List (Row × Staged)} {stored : List (Row × Version)}
    {changes : List (Staged × Effect)} (h : Prepared s spec n db t source stored changes)
    (now : Int) :
    (((mergedRows changes).filter (isNew t)).map fun m => Version.ofStaged now m.2).Perm
      (writtenVersions now changes) := by
  have hwritten : ((changes.filter fun c => c.2 = .insert) ++
      changes.filter fun c => c.2 = .replace).Perm (changes.filter fun c => c.2 ≠ .keep) := by
    have hsplit := List.filter_append_perm (fun c : Staged × Effect => c.2 = .insert)
      (changes.filter fun c => c.2 ≠ .keep)
    rw [List.filter_filter, List.filter_filter] at hsplit
    have hinsert : changes.filter (fun c => decide (c.2 = .insert) && decide (c.2 ≠ .keep)) =
        changes.filter fun c => c.2 = .insert :=
      List.filter_congr fun c _ => by cases c.2 <;> rfl
    have hreplace : changes.filter (fun c => !decide (c.2 = .insert) && decide (c.2 ≠ .keep)) =
        changes.filter fun c => c.2 = .replace :=
      List.filter_congr fun c _ => by cases c.2 <;> rfl
    rwa [hinsert, hreplace] at hsplit
  rw [h.filter_new, List.map_append, List.map_map, List.map_map]
  show ((_ : List (Staged × Effect)).map (fun c => Version.ofStaged now c.1) ++
    (_ : List (Staged × Effect)).map fun c => Version.ofStaged now c.1).Perm _
  rw [← List.map_append]
  exact hwritten.map fun c => Version.ofStaged now c.1

/-! ## 5. Every merge -/

/-- The changes of a plan in the order of the staged snapshot. -/
theorem exists_changes_perm {t : Table} {encoding : KeyEncoding} {snapshot : List SnapshotRow}
    (plan : Plan t encoding snapshot) :
    ∃ changes : List (Staged × Effect), changes.map Prod.fst = stagedFirsts plan.rows ∧
      changes.Perm plan.changes := by
  have hstaged : List.Forall₂ (fun r c => r = c.1) (stagedOf plan.rows) plan.changes := by
    rw [← plan.changes_staged, List.forall₂_map_left_iff, List.forall₂_same]
    exact fun _ _ => rfl
  obtain ⟨changes, hchanges, hperm⟩ :=
    List.perm_comp_forall₂ (stagedFirsts_perm plan.rows) hstaged
  have hfirsts := List.forall₂_map_right_iff.mpr hchanges
  rw [List.forall₂_eq_eq_eq] at hfirsts
  exact ⟨changes, hfirsts.symm, hperm⟩

/-- A plan for a snapshot that the source reads as, over a history that the
vault holds, prepares the merge. -/
theorem exists_prepared {s : Settings} {spec : EntitySpec} {n : SatelliteNames} {db : Database}
    {t : Table} {snapshot : List SnapshotRow} {sourceRows vaultRows : List Row}
    (hs : WellNamed s spec n) (plan : Plan t s.keyEncoding snapshot) (hsingle : t.SingleCurrent)
    (hsource : db.contents spec.source = some sourceRows)
    (hsnapshot : List.Forall₂ (ReadAs spec) sourceRows snapshot)
    (hvault : db.contents (s.vaultTable spec.name) = some vaultRows)
    (hstored : Represents s spec n db.toSession vaultRows t) :
    ∃ source stored changes, Prepared s spec n db t source stored changes ∧
      (stored.map Prod.snd).Perm t.versions ∧ changes.Perm plan.changes := by
  obtain ⟨versions, hversions, hrows⟩ := hstored
  have hread : List.Forall₂ (fun row r => ReadAs spec row r.row) sourceRows plan.rows := by
    rw [← plan.rows_eq] at hsnapshot
    exact List.forall₂_map_right_iff.mp hsnapshot
  obtain ⟨changes, hfirsts, hperm⟩ := exists_changes_perm plan
  have hsnd : (vaultRows.zip versions).map Prod.snd = versions :=
    List.map_snd_zip hrows.length_eq.ge
  have hsourceSnd : (sourceRows.zip plan.rows).map Prod.snd = plan.rows :=
    List.map_snd_zip hread.length_eq.ge
  refine ⟨sourceRows.zip plan.rows, vaultRows.zip versions, changes, ?_, ?_, hperm⟩
  · constructor
    · exact hs
    · rw [List.map_fst_zip hread.length_eq.le]
      exact hsource
    · intro p hp
      have hrow := plan.rows_staged p.2 (List.of_mem_zip hp).2
      exact ⟨(List.forall₂_iff_zip.mp hread).2 hp, hrow.hashKey, hrow.hashDiff⟩
    · rw [List.map_fst_zip hrows.length_eq.le]
      exact hvault
    · exact fun p hp => (List.forall₂_iff_zip.mp hrows).2 hp
    · rw [hsnd]
      exact hsingle.filter_eq hversions
    · rw [hfirsts, hsourceSnd]
    · exact fun c hc => plan.fits c (hperm.mem_iff.mp hc)
    · exact (hperm.pairwise_iff fun hab => Ne.symm hab).mpr plan.distinct
  · rw [hsnd]
    exact hversions

/-- The body of the merge artifact is the merge statement. -/
theorem mergeArtifact_eq_ok {s : Settings} {spec : EntitySpec} {n : SatelliteNames}
    {merge : Artifact} (h : mergeArtifact s spec n = .ok merge) :
    merge.role = .satelliteMerge ∧ merge.body = (mergeStatement s spec n).toSql s.dialect := by
  simp only [mergeArtifact, bind_eq_ok_iff, pure_eq_ok_iff] at h
  obtain ⟨target, -, rfl⟩ := h
  exact ⟨rfl, rfl⟩

/-- The artifacts of a satellite with its history. -/
theorem generateSatellite_eq_ok {s : Settings} {spec : EntitySpec} {artifacts : List Artifact}
    (h : generateSatellite s spec = .ok artifacts) (hhistory : s.emitHistory = true) :
    ∃ n, expectKind spec .satellite = .ok () ∧ SatelliteNames.of spec = .ok n ∧
      checkReserved s spec n.all = .ok () ∧
      ∃ base merge, artifacts = [base, merge] ∧ merge.role = .satelliteMerge ∧
        merge.body = (mergeStatement s spec n).toSql s.dialect := by
  simp only [generateSatellite, hhistory, if_true, bind_eq_ok_iff, pure_eq_ok_iff] at h
  obtain ⟨⟨⟩, hkind, n, hnames, ⟨⟩, hreserved, base, -, merge, hmerge, rfl⟩ := h
  exact ⟨n, hkind, hnames, hreserved, base, merge, rfl, mergeArtifact_eq_ok hmerge⟩

/-- The generated merge and the merge in memory agree. For a satellite that
is generated with its history, a history that merges have reached, and a
snapshot that merges into it at the time of the clock: over a source that
reads as the snapshot and a vault that holds the history, the merge statement
leaves a vault that holds the merged history. -/
theorem merge_simulates (s : Settings) (spec : EntitySpec) (n : SatelliteNames)
    (artifacts : List Artifact) (db : Database) (loads : List Load) (t t' : Table)
    (snapshot : List SnapshotRow) (summary : Summary) (sourceRows vaultRows : List Row)
    (hvalid : s.validate = .ok ()) (hhistory : s.emitHistory = true)
    (hgenerated : generateSatellite s spec = .ok artifacts)
    (hnames : SatelliteNames.of spec = .ok n)
    (hclash : ∀ column ∈ s.columns.all, Ident.among n.all column = false)
    (hreached : (Table.forSpec spec).mergeAll s.keyEncoding loads = .ok t)
    (hmerged : t.merge s.keyEncoding db.now snapshot = .ok (t', summary))
    (hsource : db.contents spec.source = some sourceRows)
    (hsnapshot : List.Forall₂ (ReadAs spec) sourceRows snapshot)
    (hvault : db.contents (s.vaultTable spec.name) = some vaultRows)
    (hstored : Represents s spec n db.toSession vaultRows t) :
    (∃ merge ∈ artifacts, merge.role = .satelliteMerge ∧
      merge.body = (mergeStatement s spec n).toSql s.dialect) ∧
    ∃ rows, mergeRows db (mergeStatement s spec n) = some rows ∧
      Represents s spec n db.toSession rows t' := by
  obtain ⟨n', hkind, hnames', hreserved, base, merge, rfl, hrole, hbody⟩ :=
    generateSatellite_eq_ok hgenerated hhistory
  obtain rfl : n' = n := Except.ok.inj (hnames'.symm.trans hnames)
  refine ⟨⟨merge, by simp, hrole, hbody⟩, ?_⟩
  have hs := wellNamed_of_checked hvalid hkind hnames hreserved hclash
  have hsingle : t.SingleCurrent :=
    (mergeAll_induction (singleCurrent_empty _ _) (P := fun _ _ => True) trivial
      (fun _ _ _ _ _ _ => trivial) hreached).1
  obtain ⟨plan, rfl, -⟩ := Table.merge_eq_ok_iff.mp hmerged
  obtain ⟨source, stored, changes, hprepared, hversions, hchanges⟩ :=
    exists_prepared hs plan hsingle hsource hsnapshot hvault hstored
  obtain ⟨rows, hrows, hrowsAs⟩ := hprepared.exists_mergeRows
  refine ⟨rows, hrows, _, ?_, hrowsAs⟩
  rw [plan.foldl_eq_result db.now hsingle]
  have hkeys : (replacedKeys changes).Perm (replacedKeys plan.changes) :=
    (hchanges.filter _).map _
  have hsettled : (stored.map fun p => p.2.settle db.now (replacedKeys changes)).Perm
      (t.versions.map (Version.settle db.now (replacedKeys plan.changes))) := by
    rw [← Version.settle_congr hkeys]
    have hmap := hversions.map (Version.settle db.now (replacedKeys changes))
    rwa [List.map_map] at hmap
  have hwritten : (writtenVersions db.now changes).Perm (writtenVersions db.now plan.changes) :=
    (hchanges.filter _).map _
  exact hsettled.append ((written_perm hprepared db.now).trans hwritten)

/-! ## 6. An example -/

/-- A satellite with one key and one attribute. -/
def sampleSpec : EntitySpec where
  name := ⟨"customer_details", by decide, by decide⟩
  kind := .satellite
  businessKey := [⟨"customer_id", by decide, by decide⟩]
  descriptive := [⟨"email", by decide, by decide⟩]
  source := .bare ⟨"customers", by decide, by decide⟩
  enoughKeys := by decide
  describes_eq := by decide
  distinct := by decide

/-- The names of its columns. -/
def sampleNames : SatelliteNames where
  hashKey := ⟨"customer_id_hk", by decide, by decide⟩
  businessKeys := [⟨"customer_id_bk", by decide, by decide⟩]

theorem sampleNames_of : SatelliteNames.of sampleSpec = .ok sampleNames := by
  have hhash : sampleSpec.derived sampleSpec.hashKeyName = .ok sampleNames.hashKey := by
    decide +kernel
  have hkeys : sampleSpec.derived sampleSpec.businessKeyNames = .ok sampleNames.businessKeys := by
    decide +kernel
  unfold SatelliteNames.of
  rw [hhash, hkeys]
  rfl

/-- A row that has been loaded. -/
def sampleStaged : Staged :=
  ⟨Sha256.hexDigest "1", Sha256.hexDigest "old", ⟨[some "1"], [some "old"]⟩⟩

/-- The warehouse after one load, with changed attributes in the source. -/
def sampleDatabase : Database where
  dialect := .bigQuery
  now := 20
  dayStart := id
  contents table :=
    if table = sampleSpec.source then
      some [Row.named [(⟨"customer_id", by decide, by decide⟩, .text "1"),
        (⟨"email", by decide, by decide⟩, .text "new")]]
    else if table = Settings.standard.vaultTable sampleSpec.name then
      some [Row.named (insertedColumns .standard sampleSpec sampleNames (.time 10) sampleStaged)]
    else none

theorem merge_simulates_sample :
    ∃ t' summary rows,
      (⟨1, 1, [.ofStaged 10 sampleStaged]⟩ : Table).merge Settings.standard.keyEncoding 20
        [⟨[some "1"], [some "new"]⟩] = .ok (t', summary) ∧
      mergeRows sampleDatabase (mergeStatement .standard sampleSpec sampleNames) = some rows ∧
      Represents .standard sampleSpec sampleNames sampleDatabase.toSession rows t' := by
  have hclash : ∀ column ∈ Settings.standard.columns.all,
      Ident.among sampleNames.all column = false := by decide +kernel
  have hreserved : checkReserved .standard sampleSpec sampleNames.all = .ok () := by decide +kernel
  have hs := wellNamed_of_checked (s := .standard) rfl (by decide) sampleNames_of hreserved hclash
  have hgenerates : (generateSatellite .standard sampleSpec).toOption.isSome = true := by
    decide +kernel
  have hmerges : ((⟨1, 1, [.ofStaged 10 sampleStaged]⟩ : Table).merge
      Settings.standard.keyEncoding 20 [⟨[some "1"], [some "new"]⟩]).toOption.isSome = true := by
    decide +kernel
  cases hgenerated : generateSatellite .standard sampleSpec with
  | error e =>
    rw [hgenerated] at hgenerates
    cases hgenerates
  | ok artifacts =>
    cases hmerged : (⟨1, 1, [.ofStaged 10 sampleStaged]⟩ : Table).merge
        Settings.standard.keyEncoding 20 [⟨[some "1"], [some "new"]⟩] with
    | error e =>
      rw [hmerged] at hmerges
      cases hmerges
    | ok merged =>
      obtain ⟨t', summary⟩ := merged
      obtain ⟨-, rows, hrows, hrepresents⟩ := merge_simulates .standard sampleSpec sampleNames
        artifacts sampleDatabase [⟨10, [sampleStaged.row]⟩] ⟨1, 1, [.ofStaged 10 sampleStaged]⟩ t'
        [⟨[some "1"], [some "new"]⟩] summary _ _ rfl rfl hgenerated sampleNames_of hclash
        (by decide +kernel) hmerged rfl
        (.cons ⟨.cons rfl .nil, .cons rfl .nil⟩ .nil) rfl
        ⟨_, .refl _, .cons (storedAs_inserted hs ⟨rfl, rfl⟩ 10) .nil⟩
      exact ⟨t', summary, rows, rfl, hrows, hrepresents⟩

end DataVault.Generate
