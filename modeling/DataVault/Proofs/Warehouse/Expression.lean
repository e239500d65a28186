/-
DataVault.Proofs.Warehouse.Expression — the value of an expression.

`eval` gives an expression the value that a warehouse computes for it, from
a session (the dialect and the clock) and a reader of columns. It is `none`
where a warehouse would refuse the expression: for a column that cannot be
read, or an operand of a type that the operator does not take. NULL is an
ordinary datum: a comparison with it is NULL, a conjunction follows
three-valued logic, and the two dialects differ on NULL in one place, the
concatenation.

`joined` and `conjunction` leave a list of one operand as it is, since
`Expr.render` writes it without the operator.
-/
import DataVault.Digest.Sha256
import DataVault.Sql.Expr

namespace DataVault.Warehouse

open DataVault.Digest DataVault.Sql

/-! ## 1. Data -/

/-- A value in a warehouse. -/
inductive Datum where
  | null
  | text (value : String)
  | bool (value : Bool)
  | number (value : Nat)
  | time (value : Int)
  deriving DecidableEq

namespace Datum

/-- An optional text, with NULL for a missing one. -/
def ofText? : Option String → Datum
  | none => null
  | some value => text value

/-- The datum as text. The text of a time depends on more than its value
and is left open. -/
def castText : Datum → Option Datum
  | null => some null
  | text value => some (text value)
  | bool true => some (text "true")
  | bool false => some (text "false")
  | number value => some (text (toString value))
  | time _ => none

/-- The count of characters of a text. -/
def charLength : Datum → Option Datum
  | null => some null
  | text value => some (number value.length)
  | _ => none

/-- The hash of a text. -/
def hexDigest : Datum → Option Datum
  | null => some null
  | text value => some (text (Sha256.hexDigest value))
  | _ => none

/-- The first datum that is not NULL. There has to be an operand. -/
def coalesce : List Datum → Option Datum
  | [] => none
  | data => some ((data.find? (· ≠ null)).getD null)

/-- A text, or its absence. -/
def asText? : Datum → Option (Option String)
  | null => some none
  | text value => some (some value)
  | _ => none

/-- The concatenation of texts, of which there has to be one. A missing text
makes the result NULL in BigQuery and counts as empty in PostgreSQL. -/
def joined (d : Dialect) : List Datum → Option Datum
  | [] => none
  | [single] => some single
  | parts => do
      let texts ← parts.mapM asText?
      match d with
      | .bigQuery => pure (if none ∈ texts then null else text (String.join (texts.filterMap id)))
      | .postgres => pure (text (String.join (texts.filterMap id)))

/-- Whether a comparison holds for two values of which it is known whether
they are equal. -/
def ofEquality (op : CompareOp) (equal : Bool) : Datum :=
  match op with
  | .eq => bool equal
  | .ne => bool !equal

/-- The comparison of two data. -/
def compare (op : CompareOp) : Datum → Datum → Option Datum
  | null, _ | _, null => some null
  | text a, text b => some (ofEquality op (a == b))
  | bool a, bool b => some (ofEquality op (a == b))
  | number a, number b => some (ofEquality op (a == b))
  | time a, time b => some (ofEquality op (a == b))
  | _, _ => none

/-- The conjunction of two truth values. -/
def both : Datum → Datum → Option Datum
  | bool a, bool b => some (bool (a && b))
  | bool false, null | null, bool false => some (bool false)
  | bool true, null | null, bool true | null, null => some null
  | _, _ => none

/-- The conjunction of a list of truth values. -/
def conjunction : List Datum → Option Datum
  | [] => some (bool true)
  | [single] => some single
  | a :: rest => do both a (← conjunction rest)

end Datum

/-! ## 2. Evaluation -/

/-- What a statement runs in. -/
structure Session where
  dialect : Dialect
  /-- The clock of the statement. -/
  now : Int
  /-- The time at which the day of a time begins, where the session is. -/
  dayStart : Int → Int

/-- The data of the columns in scope, by qualifier and name. -/
abbrev Reader := Option Ident → Ident → Option Datum

mutual

/-- The value of an expression. -/
def eval (session : Session) (read : Reader) : Expr → Option Datum
  | .column qualifier name => read qualifier name
  | .str value => some (.text value)
  | .bool value => some (.bool value)
  | .null => some .null
  | .castText e => do (← eval session read e).castText
  | .coalesce args => do Datum.coalesce (← evalAll session read args)
  | .concat parts => do Datum.joined session.dialect (← evalAll session read parts)
  | .charLength e => do (← eval session read e).charLength
  | .hexDigest e => do (← eval session read e).hexDigest
  | .currentTimestamp => some (.time session.now)
  | .currentDate => some (.time (session.dayStart session.now))
  | .compare op left right => do
      Datum.compare op (← eval session read left) (← eval session read right)
  | .and terms => do Datum.conjunction (← evalAll session read terms)

/-- The values of several expressions. -/
def evalAll (session : Session) (read : Reader) : List Expr → Option (List Datum)
  | [] => some []
  | e :: es => do pure ((← eval session read e) :: (← evalAll session read es))

end

/-- A condition holds; NULL does not. -/
def holds (session : Session) (read : Reader) (condition : Expr) : Option Bool :=
  match eval session read condition with
  | some (.bool value) => some value
  | some .null => some false
  | _ => none

theorem evalAll_eq_mapM {session : Session} {read : Reader} (es : List Expr) :
    evalAll session read es = es.mapM (eval session read) := by
  induction es with
  | nil => rfl
  | cons e es ih => rw [List.mapM_cons, evalAll, ih]

end DataVault.Warehouse
