/-
DataVault.Proofs.Generate.SatelliteRows — the rows that a satellite's merge
works on.

Three kinds of row occur. A source row reads as a row of the snapshot
(`ReadAs`). A staged row has the columns `stagedColumns`, in front of which
the merged rows have their merge key. A row of the vault reads as a version
of the history (`StoredAs`), in every column but the record source.

`WellNamed` collects what the generator and the settings guarantee of the
columns; from it, each column of a staged, merged or inserted row is read by
its name.
-/
import DataVault.History.Table
import DataVault.Proofs.Generate.SatelliteColumns
import DataVault.Proofs.Warehouse.Digest

namespace DataVault.Generate

open DataVault.Digest DataVault.Entity DataVault.History DataVault.Sql DataVault.Warehouse

/-! ## 1. Source and vault -/

/-- A time as the load column holds it: a date is the beginning of its day. -/
def Settings.stamp (s : Settings) (session : Session) (time : Int) : Datum :=
  match s.loadPrecision with
  | .timestamp => .time time
  | .date => .time (session.dayStart time)

theorem eval_loadExpr (s : Settings) (session : Session) (read : Reader) :
    eval session read s.loadExpr = some (s.stamp session session.now) := by
  unfold Settings.loadExpr Settings.stamp
  cases s.loadPrecision <;> rfl

/-- The columns read as these texts. -/
def HasTexts (row : Row) (columns : List Ident) (values : List (Option String)) : Prop :=
  List.Forall₂ (fun name value => row.read? name = some (.ofText? value)) columns values

/-- The source row reads as a row of the snapshot. -/
structure ReadAs (spec : EntitySpec) (row : Row) (snapshot : SnapshotRow) : Prop where
  key : HasTexts row spec.businessKey snapshot.key
  attributes : HasTexts row spec.descriptive snapshot.attributes

/-- The vault row reads as a version. -/
structure StoredAs (s : Settings) (spec : EntitySpec) (n : SatelliteNames) (session : Session)
    (row : Row) (v : Version) : Prop where
  hashKey : row.read? n.hashKey = some (.text v.hashKey)
  key : HasTexts row n.businessKeys v.key
  attributes : HasTexts row spec.descriptive v.attributes
  hashDiff : row.read? s.columns.hashDiff = some (.text v.hashDiff)
  loadedAt : row.read? s.columns.loadTime = some (s.stamp session v.loadedAt)
  isCurrent : row.read? s.columns.isCurrent = some (.bool v.isCurrent)
  startsAt : row.read? s.columns.effectiveStart = some (s.stamp session v.startsAt)
  endsAt : row.read? s.columns.effectiveEnd = some ((v.endsAt.map (s.stamp session)).getD .null)

/-- The vault rows are the versions of a history, in some order. -/
def Represents (s : Settings) (spec : EntitySpec) (n : SatelliteNames) (session : Session)
    (rows : List Row) (t : Table) : Prop :=
  ∃ versions, versions.Perm t.versions ∧ List.Forall₂ (StoredAs s spec n session) rows versions

/-! ## 2. Well-named satellites -/

/-- The columns of the satellite differ, and it has a key and attributes. -/
structure WellNamed (s : Settings) (spec : EntitySpec) (n : SatelliteNames) : Prop where
  distinct : DistinctFields (n.all ++ spec.descriptive ++ s.columns.all)
  width : n.businessKeys.length = spec.businessKey.length
  keyed : spec.businessKey ≠ []
  described : spec.descriptive ≠ []

/-- A satellite that is generated is well named, unless a vault column has a
generated name. -/
theorem wellNamed_of_checked {s : Settings} {spec : EntitySpec} {n : SatelliteNames}
    (hvalid : s.validate = .ok ()) (hkind : expectKind spec .satellite = .ok ())
    (hnames : SatelliteNames.of spec = .ok n) (hreserved : checkReserved s spec n.all = .ok ())
    (hclash : ∀ column ∈ s.columns.all, Ident.among n.all column = false) :
    WellNamed s spec n where
  distinct := SatelliteNames.distinct_columns hvalid hnames hreserved hclash
  width := (businessKeys_text hnames).length_eq.symm
  keyed := by
    intro hnil
    have henough := spec.enoughKeys
    rw [hnil] at henough
    cases hk : spec.kind <;> simp [hk, EntityKind.minKeys] at henough
  described := by
    intro hnil
    have hdescribes := spec.describes_eq
    unfold expectKind at hkind
    split at hkind
    · next hsatellite => simp [hnil, hsatellite, EntityKind.describes] at hdescribes
    · cases hkind

/-- The row has as many values as the satellite has fields. -/
structure Filled (spec : EntitySpec) (row : SnapshotRow) : Prop where
  key : row.key.length = spec.businessKey.length
  attributes : row.attributes.length = spec.descriptive.length

theorem ReadAs.filled {spec : EntitySpec} {row : Row} {snapshot : SnapshotRow}
    (h : ReadAs spec row snapshot) : Filled spec snapshot :=
  ⟨h.key.length_eq.symm, h.attributes.length_eq.symm⟩

/-! ## 3. Staged and merged rows -/

section
variable (s : Settings) (spec : EntitySpec) (n : SatelliteNames) (stamp : Datum)

/-- The columns of a staged row. -/
def stagedColumns (r : Staged) : List (Ident × Datum) :=
  (n.hashKey, .text r.hashKey) :: n.businessKeys.zip (r.row.key.map .ofText?) ++
    spec.descriptive.zip (r.row.attributes.map .ofText?) ++
    [(s.columns.hashDiff, .text r.hashDiff), (s.columns.loadTime, stamp),
      (s.columns.recordSource, .text (s.recordSource.getD spec.source.dotted))]

/-- The columns of a merged row, with a key to match on. -/
def mergedColumns (key : Datum) (r : Staged) : List (Ident × Datum) :=
  (mergeKey, key) :: stagedColumns s spec n stamp r

variable {s spec n stamp}

theorem hashKey_mem_staged (r : Staged) :
    (n.hashKey, .text r.hashKey) ∈ stagedColumns s spec n stamp r := by
  simp [stagedColumns]

theorem hashDiff_mem_staged (r : Staged) :
    (s.columns.hashDiff, .text r.hashDiff) ∈ stagedColumns s spec n stamp r := by
  simp [stagedColumns]

theorem loadTime_mem_staged (r : Staged) :
    (s.columns.loadTime, stamp) ∈ stagedColumns s spec n stamp r := by
  simp [stagedColumns]

variable (s spec n stamp)

/-- A row of the staged snapshot. -/
def stagedRow (r : Staged) : Row := Row.named (stagedColumns s spec n stamp r)

/-- A merged row: a staged row with the key to match on, if it has one. -/
def keyedRow (m : Option String × Staged) : Row :=
  Row.named (mergedColumns s spec n stamp (.ofText? m.1) m.2)

/-- The columns of the first version of a staged row. -/
def insertedColumns (r : Staged) : List (Ident × Datum) :=
  stagedColumns s spec n stamp r ++
    [(s.columns.isCurrent, .bool true), (s.columns.effectiveStart, stamp),
      (s.columns.effectiveEnd, .null)]

end

section
variable {s : Settings} {spec : EntitySpec} {n : SatelliteNames} {stamp : Datum}
  (hs : WellNamed s spec n) {r : Staged} (hr : Filled spec r.row)
include hs hr

theorem stagedColumns_names :
    (stagedColumns s spec n stamp r).map Prod.fst =
      n.hashKey :: n.businessKeys ++ spec.descriptive ++
        [s.columns.hashDiff, s.columns.loadTime, s.columns.recordSource] := by
  have hkeys : (n.businessKeys.zip (r.row.key.map Datum.ofText?)).map Prod.fst = n.businessKeys :=
    List.map_fst_zip (by simp [hr.key, hs.width])
  have hfields : (spec.descriptive.zip (r.row.attributes.map Datum.ofText?)).map Prod.fst =
      spec.descriptive :=
    List.map_fst_zip (by simp [hr.attributes])
  unfold stagedColumns
  rw [List.map_append, List.map_append, List.map_cons, hkeys, hfields]
  rfl

theorem insertedColumns_distinct :
    DistinctFields ((insertedColumns s spec n stamp r).map Prod.fst) := by
  have hall : DistinctFields (n.hashKey :: n.businessKeys ++ spec.descriptive ++ s.columns.all) :=
    hs.distinct.sublist
      (((List.sublist_cons_self _ _).cons_cons _).append_right _ |>.append_right _)
  refine List.Pairwise.perm hall ?_ sameName_eq_false_symm
  unfold insertedColumns
  rw [List.map_append, stagedColumns_names hs hr,
    List.append_assoc (n.hashKey :: n.businessKeys ++ spec.descriptive)]
  exact (((List.Perm.swap _ _ _).cons _).trans (List.Perm.swap _ _ _)).append_left _

theorem mergedColumns_distinct (key : Datum) :
    DistinctFields ((mergedColumns s spec n stamp key r).map Prod.fst) := by
  have hall : DistinctFields (n.all ++ spec.descriptive ++
      [s.columns.loadTime, s.columns.recordSource, s.columns.hashDiff]) :=
    hs.distinct.sublist ((List.sublist_append_left _ _).append_left _)
  refine List.Pairwise.perm hall ?_ sameName_eq_false_symm
  unfold mergedColumns
  rw [List.map_cons, stagedColumns_names hs hr]
  exact (List.Perm.swap _ _ _).trans
    ((((List.Perm.swap _ _ _).cons _).trans (List.Perm.swap _ _ _)).append_left
      (mergeKey :: n.hashKey :: n.businessKeys ++ spec.descriptive))

/-- The columns of a staged row are read by their names. -/
theorem read?_stagedRow {name : Ident} {datum : Datum}
    (hc : (name, datum) ∈ stagedColumns s spec n stamp r) :
    (stagedRow s spec n stamp r).read? name = some datum := by
  have hdistinct := (List.pairwise_cons.mp (@mergedColumns_distinct s spec n stamp hs r hr .null)).2
  have hread := Row.read?_named hdistinct hc
  exact hread

/-- So are those of a merged row. -/
theorem read?_keyedRow {key : Option String} {name : Ident} {datum : Datum}
    (hc : (name, datum) ∈ mergedColumns s spec n stamp (.ofText? key) r) :
    (keyedRow s spec n stamp (key, r)).read? name = some datum := by
  have hread := Row.read?_named (mergedColumns_distinct hs hr (.ofText? key)) hc
  exact hread

end

/-- Columns that are read one by one are read together. -/
theorem hasTexts_of_zip {row : Row} : ∀ {columns : List Ident} {values : List (Option String)},
    values.length = columns.length →
    (∀ c ∈ columns.zip (values.map .ofText?), row.read? c.1 = some c.2) →
    HasTexts row columns values
  | [], [], _, _ => .nil
  | _ :: _, _ :: _, hlength, h => by
      rw [List.map_cons, List.zip_cons_cons, List.forall_mem_cons] at h
      exact .cons h.1 (hasTexts_of_zip (Nat.succ.inj hlength) h.2)

end DataVault.Generate
