/-
DataVault.Proofs.Warehouse.Columns — what a statement says of columns before
it is run.

The references of a statement are the columns that its expressions name, each
with the alias that stands before it. An expression reads nothing else
(`eval_congr`). The columns of a query follow from its items: an item has its
alias, or the name of the column that it is, and a wildcard has the columns of
the relation that it takes. Those of a table are not known, so a wildcard over
a table gives none.

`row_has_query` says that these are the columns of the rows that the query has,
whatever the tables hold.
-/
import DataVault.Proofs.Warehouse.Rows

/-! ## 1. References -/

namespace DataVault.Sql

/-- A column as an expression names it. -/
structure ColumnRef where
  /-- The alias of the relation that the column belongs to. -/
  qualifier : Option Ident
  name : Ident

namespace Expr

mutual

/-- The columns that an expression names. -/
def refs : Expr → List ColumnRef
  | column qualifier name => [⟨qualifier, name⟩]
  | str _ | bool _ | null | currentTimestamp | currentDate => []
  | castText e | charLength e | hexDigest e => refs e
  | coalesce args | concat args | and args => refsAll args
  | compare _ left right => refs left ++ refs right

/-- The columns that several expressions name. -/
def refsAll : List Expr → List ColumnRef
  | [] => []
  | e :: es => refs e ++ refsAll es

end

theorem refsAll_eq_flatMap (es : List Expr) : refsAll es = es.flatMap refs := by
  induction es with
  | nil => rfl
  | cons e es ih => rw [refsAll, ih, List.flatMap_cons]

end Expr

def SelectItem.refs : SelectItem → List ColumnRef
  | expr e _ => e.refs
  | wildcard _ => []

/-- The columns that the conditions of the joins name. -/
def FromClause.refs (f : FromClause) : List ColumnRef := f.joins.flatMap fun j => j.on.refs

def FirstPer.refs (f : FirstPer) : List ColumnRef :=
  Expr.refsAll f.partitionBy ++ Expr.refsAll f.orderBy

def Select.refs (s : Select) : List ColumnRef :=
  s.items.flatMap SelectItem.refs ++ s.source.refs ++ s.filter.toList.flatMap Expr.refs ++
    s.firstPer.toList.flatMap FirstPer.refs

namespace Query

mutual

/-- The columns that a query names, in all its parts. -/
def refs : Query → List ColumnRef
  | select s => s.refs
  | unionAll branches => branches.flatMap Select.refs
  | withQueries named body => namedRefs named ++ refs body

def namedRefs : List (Ident × Query) → List ColumnRef
  | [] => []
  | (_, query) :: rest => refs query ++ namedRefs rest

end

end Query

def MergeClause.refs : MergeClause → List ColumnRef
  | matchedUpdate condition assignments =>
      condition.toList.flatMap Expr.refs ++ assignments.flatMap fun a => a.value.refs
  | notMatchedInsert values => values.flatMap fun a => a.value.refs

/-- The columns that a merge names, in its source, in its condition and in its
clauses. -/
def Merge.refs (m : Merge) : List ColumnRef :=
  m.source.refs ++ m.on.refs ++ m.clauses.flatMap MergeClause.refs

end DataVault.Sql

namespace DataVault.Warehouse

open DataVault.Lists DataVault.Results DataVault.Sql

section
variable {session : Session} {read read' : Reader}

mutual

/-- Readers that agree on the columns that an expression names give it the same
value. -/
theorem eval_congr : ∀ e : Expr,
    (∀ r ∈ e.refs, read r.qualifier r.name = read' r.qualifier r.name) →
      eval session read e = eval session read' e
  | .column _ _, h => h _ (List.mem_singleton.mpr rfl)
  | .str _, _ | .bool _, _ | .null, _ | .currentTimestamp, _ | .currentDate, _ => rfl
  | .castText e, h | .charLength e, h | .hexDigest e, h => by
      rw [eval, eval, eval_congr e h]
  | .coalesce args, h | .concat args, h | .and args, h => by
      rw [eval, eval, evalAll_congr args h]
  | .compare _ left right, h => by
      obtain ⟨hleft, hright⟩ := List.forall_mem_append.mp h
      rw [eval, eval, eval_congr left hleft, eval_congr right hright]

theorem evalAll_congr : ∀ es : List Expr,
    (∀ r ∈ Expr.refsAll es, read r.qualifier r.name = read' r.qualifier r.name) →
      evalAll session read es = evalAll session read' es
  | [], _ => rfl
  | e :: es, h => by
      obtain ⟨hfirst, hrest⟩ := List.forall_mem_append.mp h
      rw [evalAll, evalAll, eval_congr e hfirst, evalAll_congr es hrest]

end

end

/-! ## 2. Columns -/

/-- The columns of the queries named so far, the latest first. -/
abbrev NamedColumns := List (Ident × List Ident)

/-- The columns of a relation, where they are known. -/
def relationColumns? (named : NamedColumns) : Relation → Option (List Ident)
  | .table _ => none
  | .named name => (named.find? fun q => q.1.sameName name).map Prod.snd

/-- The relations that a selection reads, by their aliases. -/
def scopeColumns (named : NamedColumns) (f : FromClause) : List (Ident × Option (List Ident)) :=
  (aliasOf f.relation f.asName, relationColumns? named f.relation) ::
    f.joins.map fun j => (j.asName, relationColumns? named j.relation)

/-- The columns that an item stands for. -/
def itemColumns? (scope : List (Ident × Option (List Ident))) : SelectItem → Option (List Ident)
  | .expr e asName => (itemName? (.expr e asName)).map ([·])
  | .wildcard none => (scope.mapM Prod.snd).map List.flatten
  | .wildcard (some qualifier) =>
      (only? (scope.filter fun r => r.1.sameName qualifier)).bind Prod.snd

def selectColumns? (named : NamedColumns) (s : Select) : Option (List Ident) :=
  (s.items.mapM (itemColumns? (scopeColumns named s.source))).map List.flatten

/-- A selection of items that have names has these columns. -/
theorem selectColumns?_of_named {s : Select} (h : ∀ item ∈ s.items, (itemName? item).isSome)
    (named : NamedColumns) : selectColumns? named s = some (columnNames s) := by
  have hitem : ∀ item ∈ s.items, itemColumns? (scopeColumns named s.source) item =
      some (itemName? item).toList := by
    intro item hmem
    obtain ⟨name, hname⟩ := Option.isSome_iff_exists.mp (h item hmem)
    cases item with
    | expr e asName => rw [itemColumns?, hname]; rfl
    | wildcard qualifier => cases hname
  unfold selectColumns? columnNames
  rw [mapM_eq_some_map hitem, Option.map_some, ← List.flatMap_def, List.filterMap_eq_flatMap_toList]

/-- The columns that all branches of a union have. -/
def unionColumns? (named : NamedColumns) : List Select → Option (List Ident)
  | [] => none
  | branch :: rest => do
      let columns ← selectColumns? named branch
      if ∀ other ∈ rest, selectColumns? named other = some columns then pure columns else none

mutual

/-- The columns of a query, in their order. -/
def queryColumns? (named : NamedColumns) : Query → Option (List Ident)
  | .select s => selectColumns? named s
  | .unionAll branches => unionColumns? named branches
  | .withQueries queries body => do queryColumns? (← addNamedColumns? named queries) body

def addNamedColumns? (named : NamedColumns) : List (Ident × Query) → Option NamedColumns
  | [] => some named
  | (name, query) :: rest => do
      let columns ← queryColumns? named query
      addNamedColumns? ((name, columns) :: named) rest

end

/-! ## 3. Rows -/

/-- The row has these columns, in this order. -/
def Row.Has (columns : List Ident) (row : Row) : Prop := row.map Prod.fst = columns.map some

/-- Named rows have the columns that are known for their names. -/
def NamedHave (named : Named) (columns : NamedColumns) : Prop :=
  List.Forall₂ (fun q c => q.1 = c.1 ∧ ∀ row ∈ q.2, Row.Has c.2 row) named columns

/-- The rows in scope stand under these aliases, with the columns that are known
for them. -/
def Scope.Has (relations : List (Ident × Option (List Ident))) (scope : Scope) : Prop :=
  List.Forall₂ (fun r c => r.1 = c.1 ∧ ∀ columns ∈ c.2, Row.Has columns r.2) scope relations

theorem mem_of_keepWhere {α : Type} {test : α → Option Bool} : ∀ {as kept : List α},
    keepWhere test as = some kept → ∀ a ∈ kept, a ∈ as
  | [], kept, h => by cases h; nofun
  | a :: as, kept, h => by
      obtain ⟨keep, -, h⟩ := Option.bind_eq_some_iff.mp h
      obtain ⟨others, hothers, h⟩ := Option.bind_eq_some_iff.mp h
      have hrest := mem_of_keepWhere hothers
      cases h
      intro b hb
      split at hb
      · rcases List.mem_cons.mp hb with rfl | hb
        · exact List.mem_cons_self
        · exact List.mem_cons_of_mem a (hrest b hb)
      · exact List.mem_cons_of_mem a (hrest b hb)

section
variable {db : Database} {named : Named} {known : NamedColumns}

theorem relationRows_has (hnamed : NamedHave named known) {relation : Relation}
    {rows : List Row} {columns : List Ident} (hrows : relationRows db named relation = some rows)
    (hcolumns : relationColumns? known relation = some columns) :
    ∀ row ∈ rows, Row.Has columns row := by
  cases relation with
  | table t => cases hcolumns
  | named name =>
    simp only [relationRows] at hrows
    simp only [relationColumns?] at hcolumns
    induction hnamed with
    | nil => cases hrows
    | @cons q c named known hqc _ ih =>
      obtain ⟨hname, hhas⟩ := hqc
      rw [List.find?_cons] at hrows hcolumns
      rw [hname] at hrows
      cases hsame : c.1.sameName name with
      | true =>
        rw [hsame] at hrows hcolumns
        cases hrows
        cases hcolumns
        exact hhas
      | false =>
        rw [hsame] at hrows hcolumns
        exact ih hrows hcolumns

/-- A join adds its relation to what is in scope. -/
theorem scope_has_joinRows (hnamed : NamedHave named known)
    {relations : List (Ident × Option (List Ident))} {scopes joined : List Scope} {j : Join}
    (hscopes : ∀ scope ∈ scopes, Scope.Has relations scope)
    (h : joinRows db named scopes j = some joined) :
    ∀ scope ∈ joined,
      Scope.Has (relations ++ [(j.asName, relationColumns? known j.relation)]) scope := by
  obtain ⟨rows, hrows, hkept⟩ := Option.bind_eq_some_iff.mp h
  intro scope hscope
  obtain ⟨before, hbefore, hpair⟩ := List.mem_flatMap.mp (mem_of_keepWhere hkept scope hscope)
  obtain ⟨row, hrow, rfl⟩ := List.mem_map.mp hpair
  refine List.rel_append (hscopes before hbefore) (.cons ⟨rfl, fun columns hcolumns => ?_⟩ .nil)
  exact relationRows_has hnamed hrows hcolumns row hrow

theorem scope_has_joins (hnamed : NamedHave named known) : ∀ {joins : List Join}
    {relations : List (Ident × Option (List Ident))} {scopes joined : List Scope},
    (∀ scope ∈ scopes, Scope.Has relations scope) →
      joins.foldlM (joinRows db named) scopes = some joined →
      ∀ scope ∈ joined, Scope.Has
        (relations ++ joins.map fun j => (j.asName, relationColumns? known j.relation)) scope
  | [], relations, scopes, joined, hscopes, h => by
      cases h
      rw [List.map_nil, List.append_nil]
      exact hscopes
  | j :: joins, relations, scopes, joined, hscopes, h => by
      rw [List.foldlM_cons] at h
      obtain ⟨first, hfirst, hrest⟩ := Option.bind_eq_some_iff.mp h
      rw [List.map_cons, List.append_cons]
      exact scope_has_joins hnamed (scope_has_joinRows hnamed hscopes hfirst) hrest

/-- The rows in scope are those of the relations that are read. -/
theorem scope_has_source (hnamed : NamedHave named known) {f : FromClause} {scopes : List Scope}
    (h : sourceScopes db named f = some scopes) :
    ∀ scope ∈ scopes, Scope.Has (scopeColumns known f) scope := by
  obtain ⟨rows, hrows, hjoins⟩ := Option.bind_eq_some_iff.mp h
  have hfirst : ∀ scope ∈ rows.map fun row => [(aliasOf f.relation f.asName, row)],
      Scope.Has [(aliasOf f.relation f.asName, relationColumns? known f.relation)] scope := by
    refine List.forall_mem_map.mpr fun row hrow => .cons ⟨rfl, fun columns hcolumns => ?_⟩ .nil
    exact relationRows_has hnamed hrows hcolumns row hrow
  exact scope_has_joins hnamed hfirst hjoins

/-- Conditions and the choice of first rows only leave out scopes. -/
theorem mem_of_filtered {filter : Option Expr} {scopes kept : List Scope}
    (h : filtered db filter scopes = some kept) : ∀ scope ∈ kept, scope ∈ scopes := by
  cases filter with
  | none => cases h; exact fun _ hscope => hscope
  | some condition => exact mem_of_keepWhere h

theorem mem_of_deduplicated {firstPer : Option FirstPer} {scopes kept : List Scope}
    (h : deduplicated db firstPer scopes = some kept) : ∀ scope ∈ kept, scope ∈ scopes := by
  cases firstPer with
  | none => cases h; exact fun _ hscope => hscope
  | some first =>
    obtain ⟨ranked, hranked, hkept⟩ := Option.bind_eq_some_iff.mp h
    cases hkept
    refine List.forall_mem_map.mpr fun r hr => ?_
    obtain ⟨scope, hscope, hrank⟩ := exists_of_mem_right (mapM_eq_some_iff.mp hranked)
      ((firstOfEach_sublist _ _ ranked []).subset hr)
    obtain ⟨partition, -, hrank⟩ := Option.bind_eq_some_iff.mp hrank
    obtain ⟨order, -, hrank⟩ := Option.bind_eq_some_iff.mp hrank
    cases hrank
    exact hscope

end

/-! ## 4. Selections and queries -/

/-- Rows side by side have their columns side by side. -/
theorem row_has_flatten {columns : List (List Ident)} {rows : List Row}
    (h : List.Forall₂ Row.Has columns rows) : Row.Has columns.flatten rows.flatten := by
  induction h with
  | nil => rfl
  | cons hrow _ ih =>
    unfold Row.Has at hrow ih ⊢
    rw [List.flatten_cons, List.flatten_cons, List.map_append, List.map_append, hrow, ih]

section
variable {db : Database} {relations : List (Ident × Option (List Ident))} {scope : Scope}
  (hscope : Scope.Has relations scope)
include hscope

theorem row_has_scope {columns : List (List Ident)} (h : relations.mapM Prod.snd = some columns) :
    Row.Has columns.flatten (scope.flatMap Prod.snd) := by
  rw [List.flatMap_def]
  refine row_has_flatten ?_
  rw [List.forall₂_map_right_iff]
  exact forall₂_of_common (fun _ columns _ hknown hhas => hhas.2 columns hknown)
    (mapM_eq_some_iff.mp h) hscope.flip

theorem row_has_qualified {qualifier : Ident} {columns : List Ident} {row : Row}
    (hcolumns : (only? (relations.filter fun r => r.1.sameName qualifier)).bind Prod.snd =
      some columns)
    (hrow : scope.columns? (some qualifier) = some row) : Row.Has columns row := by
  obtain ⟨⟨name, known⟩, honly, hknown⟩ := Option.bind_eq_some_iff.mp hcolumns
  obtain ⟨⟨own, row⟩, honlyRow, rfl⟩ := Option.map_eq_some_iff.mp hrow
  have hfiltered : Scope.Has (relations.filter fun r => r.1.sameName qualifier)
      (scope.filter fun r => r.1.sameName qualifier) :=
    List.rel_filter (fun r c hrc => by simp only [hrc.1]) hscope
  rw [only?_eq_some_iff.mp honly, only?_eq_some_iff.mp honlyRow] at hfiltered
  obtain _ | ⟨hhas, -⟩ := hfiltered
  exact hhas.2 columns hknown

theorem row_has_item {item : SelectItem} {columns : List Ident} {cells : Row}
    (hcolumns : itemColumns? relations item = some columns)
    (hcells : itemCells db scope item = some cells) : Row.Has columns cells := by
  match item with
  | .expr e asName =>
    obtain ⟨name, hname, rfl⟩ := Option.map_eq_some_iff.mp hcolumns
    exact names_of_itemCells hname hcells
  | .wildcard none =>
    obtain ⟨all, hall, rfl⟩ := Option.map_eq_some_iff.mp hcolumns
    cases hcells
    exact row_has_scope hscope hall
  | .wildcard (some qualifier) => exact row_has_qualified hscope hcolumns hcells

theorem row_has_project {items : List SelectItem} {columns : List (List Ident)} {row : Row}
    (hcolumns : items.mapM (itemColumns? relations) = some columns)
    (hrow : project db items scope = some row) : Row.Has columns.flatten row := by
  obtain ⟨cells, hcells, hflat⟩ := Option.bind_eq_some_iff.mp hrow
  cases hflat
  refine row_has_flatten (forall₂_of_common ?_ (mapM_eq_some_iff.mp hcolumns)
    (mapM_eq_some_iff.mp hcells))
  exact fun _ _ _ hitem hcell => row_has_item hscope hitem hcell

end

section
variable {db : Database} {named : Named} {known : NamedColumns}

/-- The rows of a selection have its columns. -/
theorem row_has_select (hnamed : NamedHave named known) {s : Select} {columns : List Ident}
    {rows : List Row} (hcolumns : selectColumns? known s = some columns)
    (hrows : selectRows db named s = some rows) : ∀ row ∈ rows, Row.Has columns row := by
  obtain ⟨parts, hparts, rfl⟩ := Option.map_eq_some_iff.mp hcolumns
  obtain ⟨scopes, hscopes, h⟩ := Option.bind_eq_some_iff.mp hrows
  obtain ⟨kept, hkept, h⟩ := Option.bind_eq_some_iff.mp h
  obtain ⟨firsts, hfirsts, h⟩ := Option.bind_eq_some_iff.mp h
  obtain ⟨projected, hprojected, h⟩ := Option.bind_eq_some_iff.mp h
  have hall : ∀ row ∈ projected, Row.Has parts.flatten row := by
    intro row hrow
    obtain ⟨scope, hscope, hproject⟩ :=
      exists_of_mem_right (mapM_eq_some_iff.mp hprojected) hrow
    have hsource : scope ∈ scopes :=
      mem_of_filtered hkept scope (mem_of_deduplicated hfirsts scope hscope)
    exact row_has_project (scope_has_source hnamed hscopes scope hsource) hparts hproject
  cases h
  split
  · exact fun row hrow => hall row (List.mem_eraseDups.mp hrow)
  · exact hall

/-- A union has the columns of each of its branches. -/
theorem branch_has_union {branches : List Select} {columns : List Ident}
    (h : unionColumns? known branches = some columns) :
    ∀ branch ∈ branches, selectColumns? known branch = some columns := by
  cases branches with
  | nil => cases h
  | cons branch rest =>
    obtain ⟨first, hfirst, h⟩ := Option.bind_eq_some_iff.mp h
    split at h
    · next hrest =>
      cases h
      exact List.forall_mem_cons.mpr ⟨hfirst, hrest⟩
    · cases h

theorem row_has_union (hnamed : NamedHave named known) {branches : List Select}
    {columns : List Ident} {rows : List Row}
    (hcolumns : unionColumns? known branches = some columns)
    (hrows : unionRows db named branches = some rows) : ∀ row ∈ rows, Row.Has columns row := by
  obtain ⟨parts, hparts, h⟩ := Option.bind_eq_some_iff.mp hrows
  simp only at h
  intro row hrow
  split at h
  · cases h
    obtain ⟨part, hpart, hin⟩ := List.mem_flatten.mp hrow
    obtain ⟨branch, hbranch, hselect⟩ := exists_of_mem_right (mapM_eq_some_iff.mp hparts) hpart
    exact row_has_select hnamed (branch_has_union hcolumns branch hbranch) hselect row hin
  · cases h

mutual

/-- The rows of a query have its columns, whatever the tables hold. -/
theorem row_has_query : ∀ {q : Query} {named : Named} {known : NamedColumns}
    {columns : List Ident} {rows : List Row}, NamedHave named known →
      queryColumns? known q = some columns → queryRows db named q = some rows →
      ∀ row ∈ rows, Row.Has columns row
  | .select _, _, _, _, _, hnamed, hcolumns, hrows => row_has_select hnamed hcolumns hrows
  | .unionAll _, _, _, _, _, hnamed, hcolumns, hrows => row_has_union hnamed hcolumns hrows
  | .withQueries queries body, _, _, _, _, hnamed, hcolumns, hrows => by
      rw [queryColumns?] at hcolumns
      rw [queryRows] at hrows
      obtain ⟨allColumns, hallColumns, hcolumns⟩ := Option.bind_eq_some_iff.mp hcolumns
      obtain ⟨allRows, hallRows, hrows⟩ := Option.bind_eq_some_iff.mp hrows
      exact row_has_query (named_have_added hnamed hallColumns hallRows) hcolumns hrows

theorem named_have_added : ∀ {queries : List (Ident × Query)} {named allRows : Named}
    {known allColumns : NamedColumns}, NamedHave named known →
      addNamedColumns? known queries = some allColumns →
      addNamed db named queries = some allRows → NamedHave allRows allColumns
  | [], _, _, _, _, hnamed, hcolumns, hrows => by
      cases hcolumns
      cases hrows
      exact hnamed
  | (name, query) :: rest, _, _, _, _, hnamed, hcolumns, hrows => by
      rw [addNamedColumns?] at hcolumns
      rw [addNamed] at hrows
      obtain ⟨columns, hquery, hcolumns⟩ := Option.bind_eq_some_iff.mp hcolumns
      obtain ⟨rows, hqueryRows, hrows⟩ := Option.bind_eq_some_iff.mp hrows
      have hfirst : name = name ∧ ∀ row ∈ rows, Row.Has columns row :=
        ⟨rfl, row_has_query hnamed hquery hqueryRows⟩
      exact named_have_added (.cons hfirst hnamed) hcolumns hrows

end

end

end DataVault.Warehouse
