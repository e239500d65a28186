/-
DataVault.Proofs.Warehouse.Relation — the rows of a query, and what a merge
leaves.

A row carries its columns with their names. `queryRows` gives the rows of a
query over the contents of the tables, and `mergeRows` the rows that a merge
leaves in its target. As in `eval`, `none` stands for what a warehouse
refuses: a relation that does not exist, a name that two columns in scope
have, branches of a union with different columns, or a row of the target
that more than one row of the source matches.

Names are compared without case throughout.
-/
import DataVault.Proofs.Warehouse.Expression
import DataVault.Sql.Merge

namespace DataVault.Warehouse

open DataVault.Sql

/-! ## 1. Rows and scopes -/

/-- The member of a list that has no other. -/
def only? {α : Type} : List α → Option α
  | [a] => some a
  | _ => none

/-- A column of a row, with its name if it has one. -/
abbrev Cell := Option Ident × Datum

/-- The column has this name. -/
def Cell.isNamed (name : Ident) (cell : Cell) : Bool := cell.1.any (·.sameName name)

abbrev Row := List Cell

/-- The datum of the one column with a name. -/
def Row.read? (row : Row) (name : Ident) : Option Datum :=
  (only? (row.filter (Cell.isNamed name))).map Prod.snd

/-- The row with another datum in the column with a name. -/
def Row.set? (row : Row) (name : Ident) (datum : Datum) : Option Row :=
  (row.read? name).map fun _ =>
    row.map fun cell => if Cell.isNamed name cell then (cell.1, datum) else cell

/-- The rows that an expression reads, each under the alias of its relation. -/
abbrev Scope := List (Ident × Row)

/-- All columns in scope, or those of one relation. -/
def Scope.columns? (scope : Scope) : Option Ident → Option Row
  | none => some (scope.flatMap Prod.snd)
  | some qualifier => (only? (scope.filter fun r => r.1.sameName qualifier)).map Prod.snd

def Scope.read (scope : Scope) : Reader := fun qualifier name => do
  (← scope.columns? qualifier).read? name

/-- The members that satisfy a test which can fail. -/
def keepWhere {α : Type} (test : α → Option Bool) : List α → Option (List α)
  | [] => some []
  | a :: rest => do
      let kept ← test a
      let others ← keepWhere test rest
      pure (if kept then a :: others else others)

/-! ## 2. Selections -/

/-- A session together with the rows of the tables. -/
structure Database extends Session where
  contents : TableRef → Option (List Row)

/-- The rows of the queries named so far, the latest first. -/
abbrev Named := List (Ident × List Row)

def relationRows (db : Database) (named : Named) : Relation → Option (List Row)
  | .table t => db.contents t
  | .named name => (named.find? fun q => q.1.sameName name).map Prod.snd

/-- The name under which the columns of a relation are read. -/
def aliasOf (relation : Relation) (asName : Option Ident) : Ident :=
  asName.getD <|
    match relation with
    | .table t => t.name
    | .named name => name

/-- Every row in scope with every row of another relation for which the
condition holds. -/
def joinRows (db : Database) (named : Named) (scopes : List Scope) (j : Join) :
    Option (List Scope) := do
  let rows ← relationRows db named j.relation
  keepWhere (fun scope => holds db.toSession scope.read j.on)
    (scopes.flatMap fun scope => rows.map fun row => scope ++ [(j.asName, row)])

def sourceScopes (db : Database) (named : Named) (f : FromClause) : Option (List Scope) := do
  let rows ← relationRows db named f.relation
  f.joins.foldlM (joinRows db named) (rows.map fun row => [(aliasOf f.relation f.asName, row)])

def filtered (db : Database) (filter : Option Expr) (scopes : List Scope) : Option (List Scope) :=
  match filter with
  | none => some scopes
  | some condition => keepWhere (fun scope => holds db.toSession scope.read condition) scopes

/-- One datum comes before another. NULL has no place in the order. -/
def Datum.precedes : Datum → Datum → Bool
  | text a, text b => a < b
  | bool a, bool b => !a && b
  | number a, number b => a < b
  | time a, time b => a < b
  | _, _ => false

/-- The order by the first datum, then by the next ones. -/
def precedesAll : List Datum → List Datum → Bool
  | a :: as, b :: bs => a.precedes b || (a == b && precedesAll as bs)
  | _, _ => false

/-- The first member of each partition by an order, and of several first
ones the one that stands first in the list. `earlier` holds the members
already passed. -/
def firstOfEach {α : Type} (same before : α → α → Bool) (earlier : List α) : List α → List α
  | [] => []
  | a :: later =>
      let others := firstOfEach same before (a :: earlier) later
      if (earlier.all fun e => !same e a || before a e) &&
          (later.all fun l => !same l a || !before l a) then a :: others
      else others

/-- A row in scope with what it is partitioned and ordered by. -/
structure Ranked where
  partition : List Datum
  order : List Datum
  scope : Scope

def rank (db : Database) (first : FirstPer) (scope : Scope) : Option Ranked := do
  let partition ← evalAll db.toSession scope.read first.partitionBy
  let order ← evalAll db.toSession scope.read first.orderBy
  pure ⟨partition, order, scope⟩

def deduplicated (db : Database) (firstPer : Option FirstPer) (scopes : List Scope) :
    Option (List Scope) :=
  match firstPer with
  | none => some scopes
  | some first => do
      let ranked ← scopes.mapM (rank db first)
      pure ((firstOfEach (fun a b => a.partition == b.partition)
        (fun a b => precedesAll a.order b.order) [] ranked).map Ranked.scope)

/-- The name that an expression gives to its column. -/
def columnName? : Expr → Option Ident
  | .column _ name => some name
  | _ => none

/-- The columns that an item stands for. -/
def itemCells (db : Database) (scope : Scope) : SelectItem → Option Row
  | .expr e asName => do pure [(asName <|> columnName? e, ← eval db.toSession scope.read e)]
  | .wildcard qualifier => scope.columns? qualifier

def project (db : Database) (items : List SelectItem) (scope : Scope) : Option Row := do
  pure (← items.mapM (itemCells db scope)).flatten

/-- The rows of a selection. -/
def selectRows (db : Database) (named : Named) (s : Select) : Option (List Row) := do
  let scopes ← sourceScopes db named s.source
  let kept ← filtered db s.filter scopes
  let firsts ← deduplicated db s.firstPer kept
  let rows ← firsts.mapM (project db s.items)
  pure (if s.distinct then rows.eraseDups else rows)

/-! ## 3. Queries -/

/-- All rows have the same columns in the same order. -/
def sameColumns (rows : List Row) : Bool :=
  rows.all fun a => rows.all fun b => a.map Prod.fst == b.map Prod.fst

/-- The rows of a union. -/
def unionRows (db : Database) (named : Named) (branches : List Select) : Option (List Row) := do
  let rows := (← branches.mapM (selectRows db named)).flatten
  if sameColumns rows then pure rows else none

mutual

/-- The rows of a query. -/
def queryRows (db : Database) (named : Named) : Query → Option (List Row)
  | .select s => selectRows db named s
  | .unionAll branches => unionRows db named branches
  | .withQueries queries body => do queryRows db (← addNamed db named queries) body

/-- The named queries with further ones, each of which the next ones read. -/
def addNamed (db : Database) (named : Named) : List (Ident × Query) → Option Named
  | [] => some named
  | (name, query) :: rest => do
      let rows ← queryRows db named query
      addNamed db ((name, rows) :: named) rest

end

/-! ## 4. Merges -/

/-- What the condition and the updates of a merge read. -/
def pairScope (m : Merge) (target source : Row) : Scope :=
  [(m.targetAlias, target), (m.sourceAlias, source)]

/-- The two rows match. -/
def pairs (db : Database) (m : Merge) (target source : Row) : Option Bool :=
  holds db.toSession (pairScope m target source).read m.on

/-- The values of assignments, all of them read before any is written. -/
def assigned (db : Database) (scope : Scope) (assignments : List Assignment) :
    Option (List (Ident × Datum)) :=
  assignments.mapM fun a => do pure (a.column, ← eval db.toSession scope.read a.value)

/-- A row of the target after the first update that applies to it. -/
def updateRow (db : Database) (scope : Scope) (target : Row) : List MergeClause → Option Row
  | [] => some target
  | .notMatchedInsert _ :: rest => updateRow db scope target rest
  | .matchedUpdate condition assignments :: rest => do
      let applies ←
        match condition with
        | none => some true
        | some c => holds db.toSession scope.read c
      if applies then
        (← assigned db scope assignments).foldlM (fun row a => row.set? a.1 a.2) target
      else updateRow db scope target rest

/-- The row that is inserted for a row of the source, if there is one. -/
def insertedRows (db : Database) (scope : Scope) : List MergeClause → Option (List Row)
  | [] => some []
  | .matchedUpdate _ _ :: rest => insertedRows db scope rest
  | .notMatchedInsert values :: _ => do
      pure [(← assigned db scope values).map fun a => (some a.1, a.2)]

/-- A row of the target after the merge. -/
def mergedRow (db : Database) (m : Merge) (source : List Row) (target : Row) : Option Row := do
  match ← keepWhere (pairs db m target) source with
  | [] => pure target
  | [matched] => updateRow db (pairScope m target matched) target m.clauses
  | _ => none

/-- No row of the target matches. -/
def unmatched (db : Database) (m : Merge) (target : List Row) (source : Row) : Option Bool := do
  pure (← keepWhere (fun row => pairs db m row source) target).isEmpty

/-- The rows that a merge leaves in its target. -/
def mergeRows (db : Database) (m : Merge) : Option (List Row) := do
  let target ← db.contents m.target
  let source ← queryRows db [] m.source
  let kept ← target.mapM (mergedRow db m source)
  let new ← keepWhere (unmatched db m target) source
  let inserted ← new.mapM fun row => insertedRows db [(m.sourceAlias, row)] m.clauses
  pure (kept ++ inserted.flatten)

end DataVault.Warehouse
