/-
DataVault.Proofs.Generate.Scoping — the columns that a merge names are there.

A merge is put together from lists of columns that are written down one by
one: the projection of the snapshot, the two branches that add the merge key to
it, the digests over fields, the conditions, and the columns that are inserted
and set. `WellScoped` says that they fit, in terms of the statement alone. Each
column that an expression names has one of four aliases or none, and is a
column of what the alias stands for (`Resolves`); the branches have the columns
of the snapshot behind the merge key, and so have the rows that are merged; and
the inserted columns are those of the snapshot and three more, with those that
an update sets among them.

Every generated merge is well scoped (`merge_wellScoped`), under all settings
and for all keys and fields.
-/
import DataVault.Proofs.Generate.ColumnNames
import DataVault.Proofs.Warehouse.Columns

namespace DataVault.Generate

open DataVault.Artifact DataVault.Digest DataVault.Entity DataVault.Results DataVault.Sql
  DataVault.Warehouse

/-! ## 1. Scopes -/

/-- The columns that the updates of a merge set. -/
def updatedColumns (m : Merge) : List Ident :=
  m.clauses.flatMap fun clause =>
    match clause with
    | .matchedUpdate _ assignments => assignments.map Assignment.column
    | .notMatchedInsert _ => []

/-- The column is one of the list that its alias stands for, or a declared field
where it has none. -/
inductive Resolves (fields staged merged history : List Ident) : ColumnRef → Prop
  | field {name : Ident} : name ∈ fields → Resolves fields staged merged history ⟨none, name⟩
  | staged {name : Ident} :
      name ∈ staged → Resolves fields staged merged history ⟨some stagedName, name⟩
  | source {name : Ident} :
      name ∈ merged → Resolves fields staged merged history ⟨some sourceName, name⟩
  | target {name : Ident} :
      name ∈ history → Resolves fields staged merged history ⟨some targetName, name⟩
  | current {name : Ident} :
      name ∈ history → Resolves fields staged merged history ⟨some currentName, name⟩

/-- The merge reads a union of two selections from the staged rows, and reads and
writes only columns that are there. `staged` holds the columns of the staged
rows. -/
structure WellScoped (s : Settings) (spec : EntitySpec) (m : Merge)
    (staging keyed changed : Select) (staged : List Ident) : Prop where
  source_eq : m.source = .withQueries [(stagedName, .select staging)] (.unionAll [keyed, changed])
  /-- What has no alias is read from the source table. -/
  staging_source : staging.source = .table spec.source
  sourceAlias_eq : m.sourceAlias = sourceName
  targetAlias_eq : m.targetAlias = targetName
  /-- The branches read the history under an alias of its own. -/
  joins_eq : ∀ j ∈ keyed.source.joins ++ changed.source.joins,
    j.asName = currentName ∧ j.relation = .table m.target
  staging_columns : selectColumns? [] staging = some staged
  keyed_columns : selectColumns? [(stagedName, staged)] keyed = some (mergeKey :: staged)
  changed_columns : selectColumns? [(stagedName, staged)] changed = some (mergeKey :: staged)
  /-- The rows that are merged have these columns, in whatever warehouse. -/
  rows : ∀ (db : Database) (rows : List Row), queryRows db [] m.source = some rows →
    ∀ row ∈ rows, Row.Has (mergeKey :: staged) row
  refs : ∀ r ∈ m.refs, Resolves spec.fields staged (mergeKey :: staged) (insertColumns m) r
  updated : ∀ column ∈ updatedColumns m, column ∈ insertColumns m
  inserted : insertColumns m =
    staged ++ [s.columns.isCurrent, s.columns.effectiveStart, s.columns.effectiveEnd]

/-! ## 2. Digests -/

/-- The parts of an encoded tuple name what its members name. -/
theorem refs_encodedParts {encoding : KeyEncoding} {values : List Expr} {r : ColumnRef}
    (h : r ∈ Expr.refsAll (encoding.encodedParts values)) : r ∈ Expr.refsAll values := by
  cases encoding with
  | delimited separator =>
    induction values with
    | nil => exact h
    | cons value rest ih =>
      cases rest with
      | nil => exact h
      | cons next rest =>
        rcases List.mem_append.mp h with hfirst | hrest
        · exact List.mem_append_left _ hfirst
        · exact List.mem_append_right _ (ih hrest)
  | lengthPrefixed =>
    rw [Expr.refsAll_eq_flatMap] at h ⊢
    obtain ⟨part, hpart, hr⟩ := List.mem_flatMap.mp h
    obtain ⟨value, hvalue, hpart⟩ := List.mem_flatMap.mp hpart
    refine List.mem_flatMap.mpr ⟨value, hvalue, ?_⟩
    simp only [List.mem_cons, List.not_mem_nil, or_false] at hpart
    rcases hpart with rfl | rfl | rfl
    · exact hr
    · cases hr
    · exact hr

/-- A digest names the columns that it is over, and no others. -/
theorem refs_digestOf {s : Settings} {qualifier : Option Ident} {columns : List Ident}
    {r : ColumnRef} (h : r ∈ (s.digestOf qualifier columns).refs) :
    ∃ name ∈ columns, r = ⟨qualifier, name⟩ := by
  have hvalues : r ∈ Expr.refsAll
      (columns.map fun name => (Expr.column qualifier name).textOrEmpty) := refs_encodedParts h
  rw [Expr.refsAll_eq_flatMap] at hvalues
  obtain ⟨e, he, hr⟩ := List.mem_flatMap.mp hvalues
  obtain ⟨name, hname, rfl⟩ := List.mem_map.mp he
  exact ⟨name, hname, List.mem_singleton.mp hr⟩

/-! ## 3. Columns -/

section
variable {s : Settings} {spec : EntitySpec} {n : SatelliteNames}

/-- The columns of a snapshot row. -/
def snapshotColumns (s : Settings) (spec : EntitySpec) (n : SatelliteNames) : List Ident :=
  n.hashKey :: n.businessKeys ++ spec.descriptive ++
    [s.columns.hashDiff, s.columns.loadTime, s.columns.recordSource]

theorem columns_stagedSelect (h : spec.businessKey.length = n.businessKeys.length) :
    selectColumns? [] (stagedSelect s spec n) = some (snapshotColumns s spec n) :=
  (selectColumns?_of_named (named_baseSelect n) []).trans (congrArg some (columns_baseLayout n h))

/-- A selection of the merge key and all staged columns has these columns. -/
theorem columns_branch {staged : List Ident} {branch : Select} {key : Expr} {joins : List Join}
    (hitems : branch.items = [.aliased key mergeKey, .wildcard (some stagedName)])
    (hsource : branch.source = ⟨.named stagedName, none, joins⟩)
    (hjoins : ∀ j ∈ joins, j.asName.sameName stagedName = false) :
    selectColumns? [(stagedName, staged)] branch = some (mergeKey :: staged) := by
  have hothers : (joins.map fun j =>
      (j.asName, relationColumns? [(stagedName, staged)] j.relation)).filter
        (fun r => r.1.sameName stagedName) = [] := by
    rw [List.filter_map, List.map_eq_nil_iff, List.filter_eq_nil_iff]
    intro j hj
    simp [hjoins j hj]
  have hwildcard : itemColumns? (scopeColumns [(stagedName, staged)] branch.source)
      (.wildcard (some stagedName)) = some staged := by
    simp only [itemColumns?, scopeColumns, hsource, aliasOf, Option.getD_none]
    rw [List.filter_cons, sameName_refl, if_pos rfl, hothers]
    simp [only?, relationColumns?, sameName_refl]
  have hkey : itemColumns? (scopeColumns [(stagedName, staged)] branch.source)
      (.aliased key mergeKey) = some [mergeKey] := rfl
  unfold selectColumns?
  rw [hitems, List.mapM_cons, List.mapM_cons, hkey, hwildcard]
  simp

theorem current_ne_staged : currentName.sameName stagedName = false := by decide

theorem columns_keyedSelect (n : SatelliteNames) (staged : List Ident) :
    selectColumns? [(stagedName, staged)] (keyedSelect n) = some (mergeKey :: staged) :=
  columns_branch rfl rfl nofun

theorem columns_changedSelect (staged : List Ident) :
    selectColumns? [(stagedName, staged)] (changedSelect s spec n) = some (mergeKey :: staged) :=
  columns_branch rfl rfl (List.forall_mem_singleton.mpr current_ne_staged)

/-- The merged rows have the columns of the staged ones behind the merge key. -/
theorem columns_mergeSource (h : spec.businessKey.length = n.businessKeys.length) :
    queryColumns? [] (mergeSource s spec n) = some (mergeKey :: snapshotColumns s spec n) := by
  simp [mergeSource, queryColumns?, addNamedColumns?, unionColumns?, columns_stagedSelect h,
    columns_keyedSelect, columns_changedSelect]

theorem insertColumns_eq (s : Settings) (spec : EntitySpec) (n : SatelliteNames) :
    insertColumns (mergeStatement s spec n) = snapshotColumns s spec n ++
      [s.columns.isCurrent, s.columns.effectiveStart, s.columns.effectiveEnd] := by
  rw [(List.cons.inj (columns_mergeLayout n)).2]
  simp [snapshotColumns]

/-! ## 4. References -/

/-- What holds of the references in each part of a selection holds of all. -/
theorem forall_refs_select {P : ColumnRef → Prop} {q : Select}
    (hitems : ∀ item ∈ q.items, ∀ r ∈ item.refs, P r)
    (hjoins : ∀ j ∈ q.source.joins, ∀ r ∈ j.on.refs, P r)
    (hfilter : ∀ e ∈ q.filter, ∀ r ∈ e.refs, P r)
    (hfirst : ∀ f ∈ q.firstPer, ∀ r ∈ f.refs, P r) : ∀ r ∈ q.refs, P r := by
  refine List.forall_mem_append.mpr ⟨List.forall_mem_append.mpr
    ⟨List.forall_mem_append.mpr ⟨?_, ?_⟩, ?_⟩, ?_⟩
  · exact List.forall_mem_flatMap.mpr hitems
  · exact List.forall_mem_flatMap.mpr hjoins
  · exact List.forall_mem_flatMap.mpr fun e he => hfilter e (Option.mem_toList.mp he)
  · exact List.forall_mem_flatMap.mpr fun f hf => hfirst f (Option.mem_toList.mp hf)

/-- The reference is to a column that the merge has. -/
abbrev InMerge (s : Settings) (spec : EntitySpec) (n : SatelliteNames) : ColumnRef → Prop :=
  Resolves spec.fields (snapshotColumns s spec n) (mergeKey :: snapshotColumns s spec n)
    (insertColumns (mergeStatement s spec n))

theorem inMerge_digest {columns : List Ident} (h : ∀ name ∈ columns, name ∈ spec.fields) :
    ∀ r ∈ (s.digestOf none columns).refs, InMerge s spec n r := by
  intro r hr
  obtain ⟨name, hname, rfl⟩ := refs_digestOf hr
  exact .field (h name hname)

theorem inMerge_renamedItems : ∀ {fields names : List Ident},
    (∀ name ∈ fields, name ∈ spec.fields) →
      ∀ item ∈ renamedItems fields names, ∀ r ∈ item.refs, InMerge s spec n r
  | [], _, _ => by simp [renamedItems]
  | _ :: _, [], _ => by simp [renamedItems]
  | field :: fields, name :: names, h => by
      obtain ⟨hfield, hfields⟩ := List.forall_mem_cons.mp h
      exact List.forall_mem_cons.mpr
        ⟨List.forall_mem_singleton.mpr (.field hfield), inMerge_renamedItems hfields⟩

theorem inMerge_loadItems : ∀ item ∈ s.loadItems spec, ∀ r ∈ item.refs, InMerge s spec n r := by
  have hload : s.loadExpr.refs = [] := by
    unfold Settings.loadExpr
    cases s.loadPrecision <;> rfl
  refine List.forall_mem_cons.mpr ⟨?_, List.forall_mem_singleton.mpr nofun⟩
  intro r hr
  change r ∈ s.loadExpr.refs at hr
  rw [hload] at hr
  cases hr

/-- The snapshot reads declared fields alone. -/
theorem inMerge_stagedSelect : ∀ r ∈ (stagedSelect s spec n).refs, InMerge s spec n r := by
  have hkey : ∀ name ∈ spec.businessKey, name ∈ spec.fields :=
    fun _ hname => List.mem_append_left _ hname
  have hdescriptive : ∀ name ∈ spec.descriptive, name ∈ spec.fields :=
    fun _ hname => List.mem_append_right _ hname
  refine forall_refs_select ?_ nofun nofun ?_
  · refine List.forall_mem_cons.mpr ⟨inMerge_digest hkey, List.forall_mem_append.mpr
      ⟨List.forall_mem_append.mpr ⟨inMerge_renamedItems hkey, ?_⟩,
        List.forall_mem_cons.mpr ⟨inMerge_digest hdescriptive, inMerge_loadItems⟩⟩⟩
    exact List.forall_mem_map.mpr fun field hfield =>
      List.forall_mem_singleton.mpr (.field (hdescriptive field hfield))
  · rintro _ ⟨⟩
    simp only [FirstPer.refs, Expr.refsAll, List.append_nil]
    exact List.forall_mem_append.mpr ⟨inMerge_digest hkey, inMerge_digest hdescriptive⟩

theorem inMerge_keyedSelect : ∀ r ∈ (keyedSelect n).refs, InMerge s spec n r :=
  List.forall_mem_singleton.mpr (.staged List.mem_cons_self)

section
variable {relation : Ident}
  (hrelation : ∀ name ∈ insertColumns (mergeStatement s spec n),
    InMerge s spec n ⟨some relation, name⟩)
include hrelation

/-- The history is matched on columns that it has. -/
theorem inMerge_currentVersionOf {key : Expr} (hkey : ∀ r ∈ key.refs, InMerge s spec n r) :
    ∀ r ∈ (currentVersionOf s n relation key).refs, InMerge s spec n r := by
  have hhash : n.hashKey ∈ insertColumns (mergeStatement s spec n) := by
    simp [insertColumns_eq, snapshotColumns]
  have hflag : s.columns.isCurrent ∈ insertColumns (mergeStatement s spec n) := by
    simp [insertColumns_eq]
  refine List.forall_mem_append.mpr ⟨List.forall_mem_cons.mpr ⟨hrelation _ hhash, hkey⟩, ?_⟩
  exact List.forall_mem_singleton.mpr (hrelation _ hflag)

/-- The history is compared by columns that it has. -/
theorem inMerge_changedFrom {digest : Expr} (hdigest : ∀ r ∈ digest.refs, InMerge s spec n r) :
    ∀ r ∈ (changedFrom s spec relation digest).refs, InMerge s spec n r := by
  refine List.forall_mem_append.mpr ⟨fun r hr => ?_, hdigest⟩
  obtain ⟨name, hname, rfl⟩ := refs_digestOf hr
  exact hrelation name (by simp [insertColumns_eq, snapshotColumns, hname])

end

theorem inMerge_changedSelect : ∀ r ∈ (changedSelect s spec n).refs, InMerge s spec n r := by
  refine forall_refs_select ?_ ?_ ?_ nofun
  · exact List.forall_mem_cons.mpr ⟨nofun, List.forall_mem_singleton.mpr nofun⟩
  · refine List.forall_mem_singleton.mpr (inMerge_currentVersionOf (fun _ => .current) ?_)
    exact List.forall_mem_singleton.mpr (.staged List.mem_cons_self)
  · rintro _ ⟨⟩
    refine inMerge_changedFrom (fun _ => .current) (List.forall_mem_singleton.mpr (.staged ?_))
    simp [snapshotColumns]

theorem inMerge_mergeSource : ∀ r ∈ (mergeSource s spec n).refs, InMerge s spec n r := by
  simp only [mergeSource, Query.refs, Query.namedRefs, List.append_nil]
  refine List.forall_mem_append.mpr ⟨inMerge_stagedSelect, List.forall_mem_flatMap.mpr ?_⟩
  exact List.forall_mem_cons.mpr
    ⟨inMerge_keyedSelect, List.forall_mem_singleton.mpr inMerge_changedSelect⟩

theorem inMerge_clauses :
    ∀ clause ∈ (mergeStatement s spec n).clauses, ∀ r ∈ clause.refs, InMerge s spec n r := by
  have hloaded : InMerge s spec n ⟨some sourceName, s.columns.loadTime⟩ :=
    .source (by simp [snapshotColumns])
  refine List.forall_mem_cons.mpr ⟨?_, List.forall_mem_singleton.mpr ?_⟩
  · refine List.forall_mem_append.mpr ⟨List.forall_mem_append.mpr ⟨?_, nofun⟩, ?_⟩
    · refine inMerge_changedFrom (fun _ => .target) (List.forall_mem_singleton.mpr (.source ?_))
      simp [snapshotColumns]
    · exact List.forall_mem_singleton.mpr hloaded
  · refine List.forall_mem_flatMap.mpr (List.forall_mem_append.mpr ⟨?_, ?_⟩)
    · exact List.forall_mem_map.mpr fun column hcolumn =>
        List.forall_mem_singleton.mpr (.source (List.mem_cons_of_mem _ hcolumn))
    · exact List.forall_mem_cons.mpr ⟨nofun, List.forall_mem_cons.mpr
        ⟨List.forall_mem_singleton.mpr hloaded, List.forall_mem_singleton.mpr nofun⟩⟩

/-- Every column that the merge names is there. -/
theorem inMerge_mergeStatement : ∀ r ∈ (mergeStatement s spec n).refs, InMerge s spec n r := by
  refine List.forall_mem_append.mpr ⟨List.forall_mem_append.mpr ⟨inMerge_mergeSource, ?_⟩, ?_⟩
  · refine inMerge_currentVersionOf (fun _ => .target) (List.forall_mem_singleton.mpr (.source ?_))
    exact List.mem_cons_self
  · exact List.forall_mem_flatMap.mpr inMerge_clauses

/-! ## 5. Generated merges -/

theorem updated_mem_insertColumns : ∀ column ∈ updatedColumns (mergeStatement s spec n),
    column ∈ insertColumns (mergeStatement s spec n) := by
  have hupdated : updatedColumns (mergeStatement s spec n) =
      [s.columns.isCurrent, s.columns.effectiveEnd] := rfl
  rw [hupdated, insertColumns_eq]
  simp

/-- The merge of a satellite fits together, whatever its keys and fields. -/
theorem wellScoped_mergeStatement (hnames : SatelliteNames.of spec = .ok n) :
    WellScoped s spec (mergeStatement s spec n) (stagedSelect s spec n) (keyedSelect n)
      (changedSelect s spec n) (snapshotColumns s spec n) := by
  have hlength : spec.businessKey.length = n.businessKeys.length :=
    (businessKeys_text hnames).length_eq
  exact {
    source_eq := rfl
    staging_source := rfl
    sourceAlias_eq := rfl
    targetAlias_eq := rfl
    joins_eq := List.forall_mem_singleton.mpr ⟨rfl, rfl⟩
    staging_columns := columns_stagedSelect hlength
    keyed_columns := columns_keyedSelect n _
    changed_columns := columns_changedSelect _
    rows := fun _ _ hrows => row_has_query .nil (columns_mergeSource hlength) hrows
    refs := inMerge_mergeStatement
    updated := updated_mem_insertColumns
    inserted := insertColumns_eq s spec n }

end

/-- Every generated merge is well scoped. -/
theorem merge_wellScoped (s : Settings) (spec : EntitySpec) (artifacts : List Artifact)
    (hhistory : s.emitHistory = true) (hgenerated : generateSatellite s spec = .ok artifacts) :
    ∃ (n : SatelliteNames) (base merge : Artifact), SatelliteNames.of spec = .ok n ∧
      artifacts = [base, merge] ∧ merge.role = .satelliteMerge ∧
      merge.body = (mergeStatement s spec n).toSql s.dialect ∧
      ∃ staging keyed changed staged,
        WellScoped s spec (mergeStatement s spec n) staging keyed changed staged := by
  obtain ⟨n, -, hnames, -, base, merge, hartifacts, hrole, hbody⟩ :=
    generateSatellite_eq_ok hgenerated hhistory
  exact ⟨n, base, merge, hnames, hartifacts, hrole, hbody, _, _, _, _,
    wellScoped_mergeStatement hnames⟩

/-- The merge of a satellite with one key and one attribute is well scoped under
the standard settings. -/
theorem merge_wellScoped_sample : ∃ artifacts,
    generateSatellite .standard sampleSpec = .ok artifacts ∧ ∃ staging keyed changed staged,
      WellScoped .standard sampleSpec (mergeStatement .standard sampleSpec sampleNames)
        staging keyed changed staged := by
  have haccepted : (generateSatellite .standard sampleSpec).isOk = true := by decide +kernel
  cases hgenerated : generateSatellite .standard sampleSpec with
  | error e =>
    rw [hgenerated] at haccepted
    cases haccepted
  | ok artifacts =>
    obtain ⟨n, _, _, hnames, -, -, -, hscoped⟩ :=
      merge_wellScoped .standard sampleSpec artifacts rfl hgenerated
    obtain rfl : sampleNames = n := Except.ok.inj (sampleNames_of.symm.trans hnames)
    exact ⟨artifacts, rfl, hscoped⟩

end DataVault.Generate
