/-
DataVault.Sql.Expr — expressions and their text.

An expression is a column, a constant, a text function, a clock, a
comparison or a conjunction. `Expr.render` writes it in a dialect. A list
of one part renders as that part alone, both in a concatenation and in a
conjunction; an empty conjunction is `TRUE`.
-/
import DataVault.Sql.Dialect

namespace DataVault.Sql

/-! ## 1. Trees -/

inductive CompareOp where
  | eq
  | ne
  deriving DecidableEq

def CompareOp.symbol : CompareOp → String
  | eq => "="
  | ne => "<>"

inductive Expr where
  /-- A column, with the alias of the relation it belongs to. -/
  | column (qualifier : Option Ident) (name : Ident)
  | str (value : String)
  | bool (value : Bool)
  | null
  | castText (e : Expr)
  | coalesce (args : List Expr)
  | concat (parts : List Expr)
  | charLength (e : Expr)
  | hexDigest (e : Expr)
  | currentTimestamp
  | currentDate
  | compare (op : CompareOp) (left right : Expr)
  | and (terms : List Expr)

namespace Expr

/-- An unqualified column. -/
def field (name : Ident) : Expr := column none name

/-- A column of the relation with the given alias. -/
def of (relation name : Ident) : Expr := column (some relation) name

/-- The text of an expression, with NULL read as the empty text. -/
def textOrEmpty (e : Expr) : Expr := coalesce [castText e, str ""]

/-! ## 2. Text -/

mutual

/-- The expression as text. -/
def render (d : Dialect) : Expr → String
  | column none name => name.text
  | column (some qualifier) name => qualifier.text ++ "." ++ name.text
  | str value => d.stringLiteral value
  | bool true => "TRUE"
  | bool false => "FALSE"
  | null => "NULL"
  | castText e => d.castText (render d e)
  | coalesce args => "COALESCE(" ++ String.intercalate ", " (renderAll d args) ++ ")"
  | concat [part] => render d part
  | concat parts => d.concat (renderAll d parts)
  | charLength e => d.charLength (render d e)
  | hexDigest e => d.hexDigest (render d e)
  | currentTimestamp => d.currentTimestamp
  | currentDate => d.currentDate
  | compare op left right => render d left ++ " " ++ op.symbol ++ " " ++ render d right
  | and [] => "TRUE"
  | and [term] => render d term
  | and terms => String.intercalate " AND " (renderAll d terms)

/-- The texts of several expressions. -/
def renderAll (d : Dialect) : List Expr → List String
  | [] => []
  | e :: es => render d e :: renderAll d es

end

/-- Expressions with commas between them. -/
def renderList (d : Dialect) (es : List Expr) : String := String.intercalate ", " (renderAll d es)

theorem renderAll_eq_map (d : Dialect) (es : List Expr) : renderAll d es = es.map (render d) := by
  induction es with
  | nil => rfl
  | cons e es ih => simp [renderAll, ih]

end Expr

end DataVault.Sql
