/-
DataVault.Proofs.Generate.ColumnNames — when the columns of a statement
differ.

The columns of a statement come from three sources: names that are generated
for the entity, the fields that it declares, and columns that the settings
name. A `Layout` says which of its columns are which. Two checks tell them
apart. The generators refuse a declared field that has the name of a generated
or of a vault column, and the settings are refused if two vault columns have
one name. Neither compares the vault columns with the generated ones, and
`columns_distinct_iff` says that this is all that is missing: the columns of a
statement differ exactly if none of its vault columns has the name of one of
its generated ones.
-/
import DataVault.Proofs.Generate.SatelliteMerge

namespace DataVault.Generate

open DataVault.Artifact DataVault.Entity DataVault.Lists DataVault.Results DataVault.Sql
  DataVault.Warehouse

/-! ## 1. Statements -/

/-- A statement that is generated. -/
inductive Statement where
  | table (s : Select)
  | merge (m : Merge)

/-- The columns that a merge inserts. -/
def insertColumns (m : Merge) : List Ident :=
  m.clauses.flatMap fun clause =>
    match clause with
    | .matchedUpdate _ _ => []
    | .notMatchedInsert values => values.map Assignment.column

namespace Statement

def kind : Statement → ArtifactKind
  | table _ => .table
  | merge _ => .operation

def toSql (d : Dialect) : Statement → String
  | table s => (Query.select s).toSql d
  | merge m => m.toSql d

/-- The columns of a table, or those that a merge inserts together with the one
that it matches on. -/
def columns : Statement → List Ident
  | table s => columnNames s
  | merge m => mergeKey :: insertColumns m

end Statement

/-- A statement with the names that are generated for it, the fields that are
declared for it and the vault columns that it has. -/
structure Layout where
  statement : Statement
  generated : List Ident
  declared : List Ident
  vault : List Ident

section
variable (s : Settings) (spec : EntitySpec)

def hubLayout (n : HubNames) : Layout where
  statement := .table (hubSelect s spec n)
  generated := n.all
  declared := []
  vault := [s.columns.loadTime, s.columns.recordSource]

def linkLayout (n : LinkNames) : Layout where
  statement := .table (linkSelect s spec n)
  generated := n.all
  declared := []
  vault := [s.columns.loadTime, s.columns.recordSource]

def baseLayout (n : SatelliteNames) : Layout where
  statement := .table (baseSelect s spec n)
  generated := n.hashKey :: n.businessKeys
  declared := spec.descriptive
  vault := [s.columns.hashDiff, s.columns.loadTime, s.columns.recordSource]

def mergeLayout (n : SatelliteNames) : Layout where
  statement := .merge (mergeStatement s spec n)
  generated := mergeKey :: n.hashKey :: n.businessKeys
  declared := spec.descriptive
  vault := [s.columns.hashDiff, s.columns.loadTime, s.columns.recordSource, s.columns.isCurrent,
    s.columns.effectiveStart, s.columns.effectiveEnd]

/-- The layouts of an entity's statements, in the order of its artifacts. -/
def layouts : Except CompileError (List Layout) :=
  match spec.kind with
  | .hub => do pure [hubLayout s spec (← HubNames.of spec)]
  | .link => do pure [linkLayout s spec (← LinkNames.of spec)]
  | .satellite => do
      let n ← SatelliteNames.of spec
      pure (baseLayout s spec n :: if s.emitHistory then [mergeLayout s spec n] else [])

end

/-! ## 2. The columns of a layout -/

/-- The rows of a table have these columns, in whatever warehouse it is built;
and so have the rows that a merge inserts, behind the merge key. -/
def Statement.RowsHave (columns : List Ident) : Statement → Prop
  | .table s => ∀ (db : Database) (named : Named) (rows : List Row),
      selectRows db named s = some rows → ∀ row ∈ rows, row.map Prod.fst = columns.map some
  | .merge m => ∀ (db : Database) (scope : Scope) (rows : List Row),
      insertedRows db scope m.clauses = some rows →
        ∀ row ∈ rows, some mergeKey :: row.map Prod.fst = columns.map some

/-- What is known of the columns of a layout, but for its generated names and
its vault columns beside each other. -/
structure Layout.Checked (l : Layout) : Prop where
  rows : l.statement.RowsHave l.statement.columns
  columns_eq : l.statement.columns = l.generated ++ l.declared ++ l.vault
  generated : DistinctFields l.generated
  declared : DistinctFields l.declared
  vault : DistinctFields l.vault
  reserved : ∀ field ∈ l.declared, ∀ name ∈ l.generated ++ l.vault, name.sameName field = false

theorem Layout.Checked.distinct_iff {l : Layout} (h : l.Checked) :
    DistinctFields l.statement.columns ↔
      ∀ column ∈ l.vault, Ident.among l.generated column = false := by
  have hfields : DistinctFields (l.generated ++ l.declared) :=
    List.pairwise_append.mpr ⟨h.generated, h.declared, fun name hname field hfield =>
      h.reserved field hfield name (List.mem_append_left _ hname)⟩
  unfold DistinctFields
  rw [h.columns_eq, List.pairwise_append]
  constructor
  · rintro ⟨-, -, hne⟩ column hcolumn
    exact among_eq_false_iff.mpr fun name hname =>
      hne name (List.mem_append_left _ hname) column hcolumn
  · intro hclash
    refine ⟨hfields, h.vault, fun name hname column hcolumn => ?_⟩
    rcases List.mem_append.mp hname with hgenerated | hfield
    · exact among_eq_false_iff.mp (hclash column hcolumn) name hgenerated
    · exact sameName_eq_false_symm
        (h.reserved name hfield column (List.mem_append_right _ hcolumn))

/-! ## 3. Vault columns -/

/-- The vault columns in the order in which a merge inserts them. -/
theorem vaultColumns_perm (c : VaultColumns) : c.all.Perm
    [c.hashDiff, c.loadTime, c.recordSource, c.isCurrent, c.effectiveStart, c.effectiveEnd] :=
  ((List.Perm.swap c.hashDiff c.recordSource _).cons c.loadTime).trans
    (.swap c.hashDiff c.loadTime _)

theorem snapshotColumns_sublist (c : VaultColumns) :
    [c.hashDiff, c.loadTime, c.recordSource].Sublist
      [c.hashDiff, c.loadTime, c.recordSource, c.isCurrent, c.effectiveStart, c.effectiveEnd] :=
  List.sublist_append_left [c.hashDiff, c.loadTime, c.recordSource] _

theorem vaultColumns_distinct {s : Settings} (hvalid : s.validate = .ok ()) :
    DistinctFields [s.columns.hashDiff, s.columns.loadTime, s.columns.recordSource,
      s.columns.isCurrent, s.columns.effectiveStart, s.columns.effectiveEnd] :=
  (s.columns_distinct hvalid).perm (vaultColumns_perm s.columns) sameName_eq_false_symm

theorem loadColumns_distinct {s : Settings} (hvalid : s.validate = .ok ()) :
    DistinctFields [s.columns.loadTime, s.columns.recordSource] :=
  (s.columns_distinct hvalid).sublist
    (List.sublist_append_left [s.columns.loadTime, s.columns.recordSource] _)

/-! ## 4. The layouts of an entity -/

section
variable {s : Settings} {spec : EntitySpec}

/-- Expressions that are projected under names give columns of these names. -/
theorem names_of_aliased (e : Ident → Expr) : ∀ {fields names : List Ident},
    fields.length = names.length →
      (List.zipWith (fun field name => SelectItem.aliased (e field) name) fields names).filterMap
        itemName? = names
  | [], [], _ => rfl
  | field :: fields, name :: names, h => by
      rw [List.zipWith_cons_cons, List.filterMap_cons_some (itemName?_aliased _ _),
        names_of_aliased e (Nat.succ.inj h)]

theorem named_aliased (e : Ident → Expr) : ∀ {fields names : List Ident},
    ∀ item ∈ List.zipWith (fun field name => SelectItem.aliased (e field) name) fields names,
      (itemName? item).isSome
  | [], _ => by simp
  | _ :: _, [] => by simp
  | _ :: _, _ :: _ => List.forall_mem_cons.mpr ⟨rfl, named_aliased e⟩

theorem named_loadItems : ∀ item ∈ s.loadItems spec, (itemName? item).isSome :=
  List.forall_mem_cons.mpr ⟨rfl, List.forall_mem_singleton.mpr rfl⟩

theorem named_hubSelect (n : HubNames) :
    ∀ item ∈ (hubSelect s spec n).items, (itemName? item).isSome :=
  List.forall_mem_cons.mpr ⟨rfl, List.forall_mem_append.mpr ⟨named_aliased _, named_loadItems⟩⟩

theorem named_linkSelect (n : LinkNames) :
    ∀ item ∈ (linkSelect s spec n).items, (itemName? item).isSome :=
  List.forall_mem_cons.mpr ⟨rfl, List.forall_mem_append.mpr
    ⟨List.forall_mem_append.mpr ⟨named_aliased _, named_aliased _⟩, named_loadItems⟩⟩

theorem named_baseSelect (n : SatelliteNames) :
    ∀ item ∈ (baseSelect s spec n).items, (itemName? item).isSome := by
  refine List.forall_mem_cons.mpr ⟨rfl, List.forall_mem_append.mpr
    ⟨List.forall_mem_append.mpr ⟨named_aliased _, ?_⟩,
      List.forall_mem_cons.mpr ⟨rfl, named_loadItems⟩⟩⟩
  exact List.forall_mem_map.mpr fun _ _ => rfl

theorem names_of_fields (fields : List Ident) :
    fields.filterMap (fun field => itemName? (.expr (.field field) none)) = fields :=
  List.filterMap_some

theorem columns_hubLayout (n : HubNames) (h : spec.businessKey.length = n.businessKeys.length) :
    (hubLayout s spec n).statement.columns =
      n.all ++ [] ++ [s.columns.loadTime, s.columns.recordSource] := by
  simp [hubLayout, Statement.columns, columnNames, hubSelect, renamedItems, Settings.loadItems,
    HubNames.all, itemName?_aliased, names_of_aliased _ h]

theorem columns_linkLayout (n : LinkNames) (hhub : spec.businessKey.length = n.hubKeys.length)
    (h : spec.businessKey.length = n.businessKeys.length) :
    (linkLayout s spec n).statement.columns =
      n.all ++ [] ++ [s.columns.loadTime, s.columns.recordSource] := by
  simp [linkLayout, Statement.columns, columnNames, linkSelect, hubKeyItems, renamedItems,
    Settings.loadItems, LinkNames.all, itemName?_aliased, names_of_aliased _ hhub,
    names_of_aliased _ h]

theorem columns_baseLayout (n : SatelliteNames)
    (h : spec.businessKey.length = n.businessKeys.length) :
    (baseLayout s spec n).statement.columns = n.hashKey :: n.businessKeys ++ spec.descriptive ++
      [s.columns.hashDiff, s.columns.loadTime, s.columns.recordSource] := by
  simp [baseLayout, Statement.columns, columnNames, baseSelect, snapshotItems, renamedItems,
    Settings.loadItems, itemName?_aliased, names_of_aliased _ h, names_of_fields]

theorem columns_takenOver (columns : List Ident) :
    (columns.map takenOver).map Assignment.column = columns := by
  rw [List.map_map]
  exact List.map_id columns

theorem insertColumns_mergeStatement (n : SatelliteNames) :
    insertColumns (mergeStatement s spec n) = (insertedVersion s spec n).map Assignment.column := by
  simp [insertColumns, mergeStatement]

theorem names_of_insertedRows {n : SatelliteNames} {db : Database} {scope : Scope} {rows : List Row}
    (h : insertedRows db scope (mergeStatement s spec n).clauses = some rows) :
    ∀ row ∈ rows, row.map Prod.fst = (insertColumns (mergeStatement s spec n)).map some := by
  obtain ⟨columns, hcolumns, hrow⟩ := Option.bind_eq_some_iff.mp h
  cases hrow
  refine List.forall_mem_singleton.mpr ?_
  rw [insertColumns_mergeStatement, ← names_of_assigned hcolumns]
  exact Row.named_names columns

theorem columns_mergeLayout (n : SatelliteNames) :
    (mergeLayout s spec n).statement.columns =
      mergeKey :: n.hashKey :: n.businessKeys ++ spec.descriptive ++
        [s.columns.hashDiff, s.columns.loadTime, s.columns.recordSource, s.columns.isCurrent,
          s.columns.effectiveStart, s.columns.effectiveEnd] := by
  unfold mergeLayout Statement.columns
  simp only
  rw [insertColumns_mergeStatement, insertedVersion, List.map_append, columns_takenOver]
  simp

theorem HubNames.of_eq_ok {n : HubNames} (h : HubNames.of spec = .ok n) :
    spec.hashKeyName = .ok n.hashKey ∧ spec.businessKeyNames = .ok n.businessKeys := by
  simp only [HubNames.of, bind_eq_ok_iff, pure_eq_ok_iff] at h
  obtain ⟨hashKey, hhash, businessKeys, hkeys, rfl⟩ := h
  exact ⟨derived_eq_ok hhash, derived_eq_ok hkeys⟩

theorem LinkNames.of_eq_ok {n : LinkNames} (h : LinkNames.of spec = .ok n) :
    spec.hashKeyName = .ok n.hashKey ∧ spec.hubKeyNames = .ok n.hubKeys ∧
      spec.businessKeyNames = .ok n.businessKeys := by
  simp only [LinkNames.of, bind_eq_ok_iff, pure_eq_ok_iff] at h
  obtain ⟨hashKey, hhash, hubKeys, hhub, businessKeys, hkeys, rfl⟩ := h
  exact ⟨derived_eq_ok hhash, derived_eq_ok hhub, derived_eq_ok hkeys⟩

theorem checked_hub {n : HubNames} (hvalid : s.validate = .ok ())
    (hnames : HubNames.of spec = .ok n) : (hubLayout s spec n).Checked := by
  obtain ⟨hhash, hkeys⟩ := HubNames.of_eq_ok hnames
  have hbusiness := suffixed_businessKeyNames hkeys
  constructor
  · exact fun _ _ _ hrows => names_of_selectRows (named_hubSelect _) hrows
  · exact columns_hubLayout _ hbusiness.length_eq
  · exact List.pairwise_cons.mpr ⟨hashKey_ne_businessKeys hhash hkeys,
      hbusiness.distinct (businessKey_distinct spec)⟩
  · exact .nil
  · exact loadColumns_distinct hvalid
  · nofun

/-- A kind without descriptive fields has none. -/
theorem descriptive_eq_nil (h : spec.kind.describes = false) : spec.descriptive = [] := by
  have hdescribes := spec.describes_eq
  rw [h] at hdescribes
  simpa using hdescribes.symm

/-- A link relates two hubs or more. -/
theorem two_le_of_link (h : spec.kind = .link) : 2 ≤ spec.businessKey.length := by
  have henough := spec.enoughKeys
  rwa [h] at henough

theorem checked_link {n : LinkNames} (hvalid : s.validate = .ok ()) (hkind : spec.kind = .link)
    (hnames : LinkNames.of spec = .ok n) : (linkLayout s spec n).Checked := by
  obtain ⟨hhash, hhub, hkeys⟩ := LinkNames.of_eq_ok hnames
  have hhubs := suffixed_hubKeyNames hhub
  have hbusiness := suffixed_businessKeyNames hkeys
  have hfields := businessKey_distinct spec
  constructor
  · exact fun _ _ _ hrows => names_of_selectRows (named_linkSelect _) hrows
  · exact columns_linkLayout _ hhubs.length_eq hbusiness.length_eq
  · refine List.pairwise_cons.mpr ⟨fun name hname => ?_, List.pairwise_append.mpr
      ⟨hhubs.distinct hfields, hbusiness.distinct hfields, hubKeys_ne_businessKeys hhub hkeys⟩⟩
    rcases List.mem_append.mp hname with hmem | hmem
    · exact hashKey_ne_hubKeys (two_le_of_link hkind) hhash hhub name hmem
    · exact hashKey_ne_businessKeys hhash hkeys name hmem
  · exact .nil
  · exact loadColumns_distinct hvalid
  · nofun

section
variable {n : SatelliteNames} (hvalid : s.validate = .ok ())
  (hnames : SatelliteNames.of spec = .ok n) (hreserved : checkReserved s spec n.all = .ok ())
include hvalid hnames hreserved

theorem checked_merge : (mergeLayout s spec n).Checked := by
  have hperm : n.all.Perm (mergeKey :: n.hashKey :: n.businessKeys) := .swap _ _ _
  constructor
  · intro db scope rows hrows row hrow
    exact congrArg (some mergeKey :: ·) (names_of_insertedRows hrows row hrow)
  · exact columns_mergeLayout n
  · exact (SatelliteNames.distinct hnames).perm hperm sameName_eq_false_symm
  · exact (List.pairwise_append.mp spec.distinct).2.1
  · exact vaultColumns_distinct hvalid
  · intro field hfield name hname
    refine checkReserved_eq_ok_iff.mp hreserved field (List.mem_append_right _ hfield) name ?_
    rcases List.mem_append.mp hname with hmem | hmem
    · exact List.mem_append_right _ (hperm.mem_iff.mpr hmem)
    · exact List.mem_append_left _ ((vaultColumns_perm s.columns).mem_iff.mpr hmem)

/-- The columns of the snapshot are among those of the merge. -/
theorem checked_base : (baseLayout s spec n).Checked := by
  have hmerge := checked_merge hvalid hnames hreserved
  have hgenerated : (n.hashKey :: n.businessKeys).Sublist (mergeLayout s spec n).generated :=
    List.sublist_cons_self mergeKey _
  have hvault : (baseLayout s spec n).vault.Sublist (mergeLayout s spec n).vault :=
    snapshotColumns_sublist s.columns
  constructor
  · exact fun _ _ _ hrows => names_of_selectRows (named_baseSelect n) hrows
  · exact columns_baseLayout n (businessKeys_text hnames).length_eq
  · exact hmerge.generated.sublist hgenerated
  · exact hmerge.declared
  · exact hmerge.vault.sublist hvault
  · intro field hfield name hname
    exact hmerge.reserved field hfield name ((hgenerated.append hvault).subset hname)

end

end

/-! ## 5. Generated statements -/

/-- The artifact is built by the statement. -/
structure BuiltBy (s : Settings) (l : Layout) (a : Artifact) : Prop where
  kind_eq : a.kind = l.statement.kind
  body_eq : a.body = l.statement.toSql s.dialect

section
variable {s : Settings} {spec : EntitySpec} {artifacts : List Artifact}

theorem builtBy_base {n : SatelliteNames} {a : Artifact} (h : baseArtifact s spec n = .ok a) :
    BuiltBy s (baseLayout s spec n) a := by
  simp only [baseArtifact, bind_eq_ok_iff, pure_eq_ok_iff] at h
  obtain ⟨target, -, rfl⟩ := h
  exact ⟨rfl, rfl⟩

theorem builtBy_merge {n : SatelliteNames} {a : Artifact} (h : mergeArtifact s spec n = .ok a) :
    BuiltBy s (mergeLayout s spec n) a := by
  simp only [mergeArtifact, bind_eq_ok_iff, pure_eq_ok_iff] at h
  obtain ⟨target, -, rfl⟩ := h
  exact ⟨rfl, rfl⟩

/-- What the generator of a kind makes, when it refuses nothing: the layouts of
the entity with the artifacts that they become. -/
inductive Generated (s : Settings) (spec : EntitySpec) : List Layout → List Artifact → Prop where
  | hub {n : HubNames} {a : Artifact} (hkind : spec.kind = .hub) (hnames : HubNames.of spec = .ok n)
      (hbuilt : BuiltBy s (hubLayout s spec n) a)
      (hheader : ∃ description,
        a.header = s.header spec .table n.businessKeys [] description (hubDocs s spec n)) :
      Generated s spec [hubLayout s spec n] [a]
  | link {n : LinkNames} {a : Artifact} (hkind : spec.kind = .link)
      (hnames : LinkNames.of spec = .ok n) (hbuilt : BuiltBy s (linkLayout s spec n) a)
      (hheader : ∃ description,
        a.header = s.header spec .table n.hubKeys [] description (linkDocs s spec n)) :
      Generated s spec [linkLayout s spec n] [a]
  | satellite {n : SatelliteNames} {base : Artifact} {ls : List Layout} {merges : List Artifact}
      (hkind : spec.kind = .satellite) (hnames : SatelliteNames.of spec = .ok n)
      (hreserved : checkReserved s spec n.all = .ok ()) (hbase : baseArtifact s spec n = .ok base)
      (hmerges : s.emitHistory = false ∧ ls = [] ∧ merges = [] ∨
        ∃ merge, mergeArtifact s spec n = .ok merge ∧ s.emitHistory = true ∧
          ls = [mergeLayout s spec n] ∧ merges = [merge]) :
      Generated s spec (baseLayout s spec n :: ls) (base :: merges)

theorem generated_of_generate (h : generate s spec = .ok artifacts) :
    ∃ ls, layouts s spec = .ok ls ∧ Generated s spec ls artifacts := by
  unfold generate at h
  unfold layouts
  cases hkind : spec.kind with
  | hub =>
    simp only [hkind, generatorFor, generateHub, bind_eq_ok_iff, pure_eq_ok_iff] at h
    obtain ⟨⟨⟩, -, names, hnames, ⟨⟩, -, target, -, rfl⟩ := h
    exact ⟨_, bind_eq_ok_iff.mpr ⟨names, hnames, rfl⟩, .hub hkind hnames ⟨rfl, rfl⟩ ⟨_, rfl⟩⟩
  | link =>
    simp only [hkind, generatorFor, generateLink, bind_eq_ok_iff, pure_eq_ok_iff] at h
    obtain ⟨⟨⟩, -, names, hnames, ⟨⟩, -, target, -, rfl⟩ := h
    exact ⟨_, bind_eq_ok_iff.mpr ⟨names, hnames, rfl⟩, .link hkind hnames ⟨rfl, rfl⟩ ⟨_, rfl⟩⟩
  | satellite =>
    simp only [hkind, generatorFor, generateSatellite, bind_eq_ok_iff] at h
    obtain ⟨⟨⟩, -, names, hnames, ⟨⟩, hreserved, base, hbase, h⟩ := h
    refine ⟨_, bind_eq_ok_iff.mpr ⟨names, hnames, rfl⟩, ?_⟩
    cases hhistory : s.emitHistory with
    | false =>
      simp only [hhistory, Bool.false_eq_true, if_false, pure_eq_ok_iff] at h ⊢
      subst h
      exact .satellite hkind hnames hreserved hbase (.inl ⟨hhistory, rfl, rfl⟩)
    | true =>
      simp only [hhistory, if_true, bind_eq_ok_iff, pure_eq_ok_iff] at h ⊢
      obtain ⟨merge, hmerge, rfl⟩ := h
      exact .satellite hkind hnames hreserved hbase (.inr ⟨merge, hmerge, hhistory, rfl, rfl⟩)

/-- The artifacts of an entity are built by its layouts. -/
theorem Generated.builtBy {ls : List Layout} (h : Generated s spec ls artifacts) :
    List.Forall₂ (BuiltBy s) ls artifacts := by
  cases h with
  | hub _ _ hbuilt _ => exact .cons hbuilt .nil
  | link _ _ hbuilt _ => exact .cons hbuilt .nil
  | satellite _ _ _ hbase hmerges =>
    refine .cons (builtBy_base hbase) ?_
    rcases hmerges with ⟨-, rfl, rfl⟩ | ⟨merge, hmerge, -, rfl, rfl⟩
    · exact .nil
    · exact .cons (builtBy_merge hmerge) .nil

theorem Generated.checked (hvalid : s.validate = .ok ()) {ls : List Layout}
    (h : Generated s spec ls artifacts) : ∀ l ∈ ls, l.Checked := by
  cases h with
  | hub _ hnames _ _ => exact List.forall_mem_singleton.mpr (checked_hub hvalid hnames)
  | link hkind hnames _ _ => exact List.forall_mem_singleton.mpr (checked_link hvalid hkind hnames)
  | satellite _ hnames hreserved _ hmerges =>
    refine List.forall_mem_cons.mpr ⟨checked_base hvalid hnames hreserved, ?_⟩
    rcases hmerges with ⟨-, rfl, -⟩ | ⟨-, -, -, rfl, -⟩
    · nofun
    · exact List.forall_mem_singleton.mpr (checked_merge hvalid hnames hreserved)

/-- The statements of an entity have been checked, and its artifacts are built
by them. -/
theorem checked_of_generate (hvalid : s.validate = .ok ()) (h : generate s spec = .ok artifacts) :
    ∃ ls, layouts s spec = .ok ls ∧
      List.Forall₂ (fun l a => l.Checked ∧ BuiltBy s l a) ls artifacts := by
  obtain ⟨ls, hls, hgenerated⟩ := generated_of_generate h
  exact ⟨ls, hls, (List.forall₂_and_left ls artifacts).mpr
    ⟨hgenerated.checked hvalid, hgenerated.builtBy⟩⟩

end

/-- Under accepted settings, the columns of each statement of an accepted entity
have different names exactly if none of its vault columns has the name of one of
its generated columns. -/
theorem columns_distinct_iff (s : Settings) (spec : EntitySpec) (artifacts : List Artifact)
    (hvalid : s.validate = .ok ()) (hgenerated : generate s spec = .ok artifacts) :
    ∃ ls, layouts s spec = .ok ls ∧
      List.Forall₂ (fun l a => a.kind = l.statement.kind ∧ a.body = l.statement.toSql s.dialect ∧
        l.statement.RowsHave l.statement.columns ∧ (DistinctFields l.statement.columns ↔
          ∀ column ∈ l.vault, Ident.among l.generated column = false)) ls artifacts := by
  obtain ⟨ls, hls, hbuilt⟩ := checked_of_generate hvalid hgenerated
  refine ⟨ls, hls, hbuilt.imp ?_⟩
  rintro l a ⟨hchecked, hbuilt⟩
  exact ⟨hbuilt.kind_eq, hbuilt.body_eq, hchecked.rows, hchecked.distinct_iff⟩

/-! ## 6. A satellite -/

theorem layouts_sampleSpec (s : Settings) : layouts s sampleSpec =
    .ok (baseLayout s sampleSpec sampleNames ::
      if s.emitHistory then [mergeLayout s sampleSpec sampleNames] else []) := by
  change (SatelliteNames.of sampleSpec >>= _) = _
  rw [sampleNames_of]
  rfl

/-- Under the standard settings the columns differ, in the snapshot and in the
merge. -/
theorem columns_distinct_iff_sample : ∃ ls, layouts .standard sampleSpec = .ok ls ∧
    ls.length = 2 ∧ ∀ l ∈ ls, DistinctFields l.statement.columns := by
  have haccepted : (generate .standard sampleSpec).isOk = true := by decide +kernel
  cases hgenerated : generate .standard sampleSpec with
  | error e =>
    rw [hgenerated] at haccepted
    cases haccepted
  | ok artifacts =>
    obtain ⟨ls, hls, hbuilt⟩ :=
      columns_distinct_iff .standard sampleSpec artifacts rfl hgenerated
    obtain rfl := Except.ok.inj ((layouts_sampleSpec .standard).symm.trans hls)
    obtain _ | ⟨⟨-, -, -, hbase⟩, _ | ⟨⟨-, -, -, hmerge⟩, -⟩⟩ := hbuilt
    refine ⟨_, hls, rfl, List.forall_mem_cons.mpr ⟨hbase.mpr ?_, List.forall_mem_singleton.mpr
      (hmerge.mpr ?_)⟩⟩
    · decide +kernel
    · decide +kernel

/-- Accepted settings and an accepted entity, one of whose statements has two
columns of one name. -/
structure Clashes (s : Settings) (spec : EntitySpec) : Prop where
  valid : s.validate = .ok ()
  accepted : (generate s spec).isOk = true
  clash : ∃ ls, layouts s spec = .ok ls ∧ ∃ l ∈ ls, ¬ DistinctFields l.statement.columns

/-- The load column has the name of a hash key. -/
def loadedInHashKey : Settings :=
  { Settings.standard with
    columns := { VaultColumns.standard with loadTime := sampleNames.hashKey } }

/-- The column that marks the current version has the name of the merge key. -/
def currentInMergeKey : Settings :=
  { Settings.standard with columns := { VaultColumns.standard with isCurrent := mergeKey } }

/-- The columns of the snapshot clash under the first settings, and those of the
merge under the second. -/
theorem columns_clash : Clashes loadedInHashKey sampleSpec ∧ Clashes currentInMergeKey sampleSpec :=
  ⟨⟨by decide +kernel, by decide +kernel, _, layouts_sampleSpec _, _, List.mem_cons_self,
      by decide +kernel⟩,
    ⟨by decide +kernel, by decide +kernel, _, layouts_sampleSpec _, _,
      List.mem_cons_of_mem _ List.mem_cons_self, by decide +kernel⟩⟩

end DataVault.Generate
