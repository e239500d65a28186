/-
DataVault.Sql.Merge — MERGE statements.

A merge joins a target table with a query and, row by row, updates what
matched or inserts what did not. Columns and values are kept in pairs, so
the two lists of an insertion cannot drift apart.
-/
import DataVault.Sql.Query

namespace DataVault.Sql

/-- A column and the value it gets. -/
structure Assignment where
  column : Ident
  value : Expr

inductive MergeClause where
  | matchedUpdate (condition : Option Expr) (assignments : List Assignment)
  | notMatchedInsert (values : List Assignment)

structure Merge where
  target : TableRef
  targetAlias : Ident
  source : Query
  sourceAlias : Ident
  on : Expr
  clauses : List MergeClause

def Assignment.render (d : Dialect) (a : Assignment) : String :=
  a.column.text ++ " = " ++ a.value.render d

def MergeClause.render (d : Dialect) : MergeClause → List String
  | matchedUpdate condition assignments =>
      let head :=
        match condition with
        | some c => "WHEN MATCHED AND " ++ c.render d ++ " THEN"
        | none => "WHEN MATCHED THEN"
      head :: "  UPDATE SET" ::
        (commaEnded (assignments.map (Assignment.render d))).map ("    " ++ ·)
  | notMatchedInsert values =>
      ["WHEN NOT MATCHED THEN",
       "  INSERT (" ++ String.intercalate ", " (values.map (·.column.text)) ++ ")",
       "  VALUES (" ++ String.intercalate ", " (values.map (·.value.render d)) ++ ")"]

/-- The lines of a merge. -/
def Merge.render (d : Dialect) (m : Merge) : List String :=
  ("MERGE INTO " ++ d.resolve m.target ++ " AS " ++ m.targetAlias.text) :: "USING (" ::
    indent (m.source.render d) ++
    [") AS " ++ m.sourceAlias.text, "ON " ++ m.on.render d] ++
    m.clauses.flatMap (MergeClause.render d)

/-- The merge as a statement. -/
def Merge.toSql (d : Dialect) (m : Merge) : String := statement d (m.render d)

end DataVault.Sql
