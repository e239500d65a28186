/-
DataVault.Sql.TableRef — references to relations of a warehouse.

A relation is named alone, inside a schema, or inside a schema of a
database. How a reference is written in a statement depends on the dialect
(`DataVault.Sql.Dialect`); `dotted` is the form that metadata uses and
`parse` reads it, with blanks allowed around the whole and around each
part.
-/
import DataVault.Sql.Ident
import DataVault.Text.Blank

namespace DataVault.Sql

open DataVault.Text

/-- A possibly qualified relation name. -/
inductive TableRef where
  | bare (name : Ident)
  | inSchema (schema name : Ident)
  | inDatabase (database schema name : Ident)
  deriving DecidableEq

namespace TableRef

/-- The identifiers of a reference, the widest qualifier first. -/
def parts : TableRef → List Ident
  | bare name => [name]
  | inSchema schema name => [schema, name]
  | inDatabase database schema name => [database, schema, name]

/-- The relation's own name. -/
def name : TableRef → Ident
  | bare name | inSchema _ name | inDatabase _ _ name => name

/-- The parts before the relation's own name. -/
def qualifiers : TableRef → List Ident
  | bare _ => []
  | inSchema schema _ => [schema]
  | inDatabase database schema _ => [database, schema]

/-- The parts with dots between them. -/
def dotted (t : TableRef) : String := Ident.textsJoined "." t.parts

instance : ToString TableRef := ⟨dotted⟩

/-- Reads a dotted name. Each part has to be an identifier, and a bad part
is reported before too many parts are. -/
def parse (text : String) : Except IdentError TableRef := do
  let trimmed := trim text
  if trimmed.isEmpty then throw .empty
  let parts ← (splitOn '.' trimmed).mapM fun part => Ident.parse (trim part)
  match parts with
  | [name] => pure (bare name)
  | [schema, name] => pure (inSchema schema name)
  | [database, schema, name] => pure (inDatabase database schema name)
  | _ => throw (.tooManyParts trimmed)

theorem parts_eq (t : TableRef) : t.parts = t.qualifiers ++ [t.name] := by
  cases t <;> rfl

end TableRef

end DataVault.Sql
