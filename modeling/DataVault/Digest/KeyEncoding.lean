/-
DataVault.Digest.KeyEncoding — digests of tuples of values.

A tuple of optional values becomes one text, which is hashed. A missing
value counts as the empty text. `delimited` joins the values with a
separator and refuses a value that contains it; `lengthPrefixed` writes
before each value its count of characters and a colon.

`digest` hashes values at hand. `digestExpr` is the expression that
computes the same digest inside a warehouse, from columns.
-/
import DataVault.Digest.Sha256
import DataVault.Entity.Error
import DataVault.Sql.Expr
import DataVault.Text.Occurs

namespace DataVault.Digest

open DataVault.Entity DataVault.Sql DataVault.Text

/-- How a tuple of values becomes one text. -/
inductive KeyEncoding where
  | delimited (separator : String)
  | lengthPrefixed
  deriving DecidableEq

namespace KeyEncoding

/-- The unit separator, a control character that ordinary data does not
hold. -/
def defaultSeparator : String := "\x1f"

/-- The encoding of a configuration that names none. -/
def standard : KeyEncoding := delimited defaultSeparator

/-- A missing value counts as the empty text. -/
def textOf (value : Option String) : String := value.getD ""

/-- The value, unless a separator that is not empty occurs in it. -/
def undelimited (separator value : String) : Except CompileError String :=
  if !separator.isEmpty && occurs separator value then
    .error (.ambiguousKeyDelimiter separator value)
  else .ok value

/-- The value after its count of characters. -/
def prefixed (value : String) : String := toString value.length ++ ":" ++ value

/-- The text of a tuple. Only a value that contains the separator is
refused, and the first such value is the one reported. -/
def encode : KeyEncoding → List (Option String) → Except CompileError String
  | delimited separator, values => do
      let texts ← values.mapM fun value => undelimited separator (textOf value)
      pure (String.intercalate separator texts)
  | lengthPrefixed, values => pure (String.join (values.map fun value => prefixed (textOf value)))

/-- The hash of a tuple's text. -/
def digest (encoding : KeyEncoding) (values : List (Option String)) :
    Except CompileError String :=
  (encoding.encode values).map Sha256.hexDigest

/-! ## In a warehouse -/

/-- The parts whose concatenation is the text of a tuple of expressions,
each of them a text. -/
def encodedParts : KeyEncoding → List Expr → List Expr
  | delimited separator, values => values.intersperse (.str separator)
  | lengthPrefixed, values =>
      values.flatMap fun value => [.castText (.charLength value), .str ":", value]

/-- The digest of the columns' values, in the order of the list. The columns
belong to the relation with the given alias, if one is given. -/
def digestExpr (encoding : KeyEncoding) (qualifier : Option Ident) (columns : List Ident) : Expr :=
  .hexDigest <| .concat <| encoding.encodedParts <|
    columns.map fun name => (Expr.column qualifier name).textOrEmpty

end KeyEncoding

end DataVault.Digest
