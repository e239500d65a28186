/-
DataVault.Sql.Query — queries and their lines.

A query is a selection, a union of selections, or a body with named
queries before it. Text is made line by line, so that a query inside
another statement only has to be indented, never read again.
-/
import DataVault.Sql.Expr

namespace DataVault.Sql

/-! ## 1. Trees -/

/-- A projected column. -/
inductive SelectItem where
  | expr (e : Expr) (asName : Option Ident)
  /-- All columns, or all those of one relation. -/
  | wildcard (qualifier : Option Ident)

/-- What a query reads. -/
inductive Relation where
  | table (t : TableRef)
  /-- A query named earlier in the same statement. -/
  | named (name : Ident)

/-- An inner join. -/
structure Join where
  relation : Relation
  asName : Ident
  on : Expr

structure FromClause where
  relation : Relation
  asName : Option Ident
  joins : List Join

/-- Keeps one row per value of `partitionBy`: the first by `orderBy`. -/
structure FirstPer where
  partitionBy : List Expr
  orderBy : List Expr

structure Select where
  distinct : Bool
  items : List SelectItem
  source : FromClause
  filter : Option Expr
  firstPer : Option FirstPer

inductive Query where
  | select (s : Select)
  | unionAll (branches : List Select)
  /-- Named queries, each of which the later ones and the body may read. -/
  | withQueries (named : List (Ident × Query)) (body : Query)

/-- Reads one table. -/
def FromClause.table (t : TableRef) : FromClause := ⟨.table t, none, []⟩

/-- Reads one named query. -/
def FromClause.named (name : Ident) : FromClause := ⟨.named name, none, []⟩

/-- An item with its name. -/
def SelectItem.aliased (e : Expr) (asName : Ident) : SelectItem := .expr e (some asName)

/-! ## 2. Lines -/

/-- Two spaces before each line that is not empty. -/
def indent (lines : List String) : List String :=
  lines.map fun line => if line.isEmpty then line else "  " ++ line

/-- Every line but the last one ends with a comma. -/
def commaEnded : List String → List String
  | [] => []
  | [line] => [line]
  | line :: rest => (line ++ ",") :: commaEnded rest

/-- The text of an item. An alias that repeats the text is left out. -/
def SelectItem.render (d : Dialect) : SelectItem → String
  | expr e none => e.render d
  | expr e (some asName) =>
      let text := e.render d
      if text = asName.text then text else text ++ " AS " ++ asName.text
  | wildcard none => "*"
  | wildcard (some qualifier) => qualifier.text ++ ".*"

def Relation.render (d : Dialect) : Relation → String
  | table t => d.resolve t
  | named name => name.text

def Join.render (d : Dialect) (j : Join) : List String :=
  ["INNER JOIN " ++ j.relation.render d ++ " AS " ++ j.asName.text, "  ON " ++ j.on.render d]

def FromClause.render (d : Dialect) (f : FromClause) : List String :=
  let head :=
    match f.asName with
    | some asName => "FROM " ++ f.relation.render d ++ " AS " ++ asName.text
    | none => "FROM " ++ f.relation.render d
  head :: f.joins.flatMap (Join.render d)

namespace Select

/-- The first line. -/
def head (d : Dialect) (s : Select) : String :=
  match s.firstPer, d.rowDedup with
  | some first, .distinctOn => "SELECT DISTINCT ON (" ++ Expr.renderList d first.partitionBy ++ ")"
  | _, _ => if s.distinct then "SELECT DISTINCT" else "SELECT"

/-- The condition. A window condition is only accepted after a condition on
rows, so a selection without one gets `TRUE` there. -/
def whereLines (d : Dialect) (s : Select) : List String :=
  match s.filter, s.firstPer, d.rowDedup with
  | some condition, _, _ => ["WHERE " ++ condition.render d]
  | none, some _, .qualify => ["WHERE TRUE"]
  | none, _, _ => []

/-- What keeps the first row of each partition, after the condition. -/
def dedupLines (d : Dialect) (s : Select) : List String :=
  match s.firstPer with
  | none => []
  | some first =>
      let partition := Expr.renderList d first.partitionBy
      let order := Expr.renderList d first.orderBy
      match d.rowDedup with
      | .qualify =>
          ["QUALIFY ROW_NUMBER() OVER (PARTITION BY " ++ partition ++ " ORDER BY " ++ order ++
            ") = 1"]
      | .distinctOn => ["ORDER BY " ++ partition ++ ", " ++ order]

/-- The lines of a selection. -/
def render (d : Dialect) (s : Select) : List String :=
  s.head d :: (commaEnded (s.items.map (SelectItem.render d))).map ("  " ++ ·) ++
    s.source.render d ++ s.whereLines d ++ s.dedupLines d

end Select

namespace Query

/-- The lines of a union, a line between each two branches. -/
def renderUnion (d : Dialect) : List Select → List String
  | [] => []
  | [branch] => branch.render d
  | branch :: rest => branch.render d ++ "UNION ALL" :: renderUnion d rest

mutual

/-- The lines of a query. -/
def render (d : Dialect) : Query → List String
  | select s => s.render d
  | unionAll branches => renderUnion d branches
  | withQueries named body => renderNamed d "WITH " named ++ render d body

/-- The lines of named queries; `keyword` stands before the first one. -/
def renderNamed (d : Dialect) (keyword : String) : List (Ident × Query) → List String
  | [] => []
  | [(name, query)] =>
      (keyword ++ name.text ++ " AS (") :: indent (render d query) ++ [")"]
  | (name, query) :: rest =>
      (keyword ++ name.text ++ " AS (") :: indent (render d query) ++ ")," ::
        renderNamed d "" rest

end

end Query

/-- A complete statement: its lines, the terminator of the dialect, and a
line feed. -/
def statement (d : Dialect) (lines : List String) : String :=
  String.intercalate "\n" lines ++ d.terminator ++ "\n"

/-- The query as a statement of its own. -/
def Query.toSql (d : Dialect) (q : Query) : String := statement d (q.render d)

end DataVault.Sql
