/-
DataVault.Sql.Literal — string literals of the two dialects.

A literal never holds a control character, so a statement line stays one
line whatever text is put into it. `bigQuery` escapes with backslashes
inside single quotes. `postgres` doubles single quotes where nothing else
needs an escape, and uses an escape string (`E'…'`) otherwise.
-/
import DataVault.Text.Control
import DataVault.Text.Hex

namespace DataVault.Sql.Literal

open DataVault.Text

/-- A character of a BigQuery literal. A control character is written with
two digits, which is enough for every one of them. -/
def bigQueryPiece (c : Char) : List Char :=
  if c = '\\' then ['\\', '\\']
  else if c = '\'' then ['\\', '\'']
  else if isControl c then ['\\', 'x'] ++ hexPadded 2 c.toNat
  else [c]

/-- A BigQuery literal. -/
def bigQuery (value : String) : String :=
  String.ofList ('\'' :: value.toList.flatMap bigQueryPiece ++ ['\''])

/-- A character of a plain Postgres literal. -/
def plainPiece (c : Char) : List Char := if c = '\'' then ['\'', '\''] else [c]

/-- A character of a Postgres escape string. Two digits name a byte there,
so a control character beyond ASCII takes the four-digit form, which names
a code point. -/
def escapePiece (c : Char) : List Char :=
  if c = '\\' then ['\\', '\\']
  else if c = '\'' then ['\\', '\'']
  else if isControl c then
    if c.toNat < 0x80 then ['\\', 'x'] ++ hexPadded 2 c.toNat
    else ['\\', 'u'] ++ hexPadded 4 c.toNat
  else [c]

/-- The text holds a character that a plain Postgres literal cannot. -/
def needsEscape (value : List Char) : Bool := value.any fun c => isControl c || c == '\\'

/-- A Postgres literal. -/
def postgres (value : String) : String :=
  if needsEscape value.toList then
    String.ofList ('E' :: '\'' :: value.toList.flatMap escapePiece ++ ['\''])
  else String.ofList ('\'' :: value.toList.flatMap plainPiece ++ ['\''])

end DataVault.Sql.Literal
