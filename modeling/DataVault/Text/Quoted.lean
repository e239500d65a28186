/-
DataVault.Text.Quoted — texts and characters quoted for messages.

`quoted` puts a text between double quotes: backslash, double quote, NUL,
tab, line feed and carriage return get their short escapes, every other
hidden character is shown as its code point in braces, and all else is
kept. `quotedChar` puts a character between single quotes, where the single quote
is escaped and the double quote is not. `asciiOnly` writes a text without
quotes and without any character outside printable ASCII.
-/
import DataVault.Text.Hex
import DataVault.Text.Hidden

namespace DataVault.Text

/-- A character as its code point in braces. -/
def codePoint (c : Char) : List Char :=
  ['\\', 'u', '\x7b'] ++ hexDigits c.toNat ++ ['\x7d']

/-- A character inside quotes of the kind `quote`. -/
def quotedPiece (quote c : Char) : List Char :=
  if c = '\x00' then ['\\', '0']
  else if c = '\t' then ['\\', 't']
  else if c = '\r' then ['\\', 'r']
  else if c = '\n' then ['\\', 'n']
  else if c = '\\' then ['\\', '\\']
  else if c = quote then ['\\', quote]
  else if isHidden c then codePoint c
  else [c]

/-- A text between double quotes. -/
def quoted (s : String) : String :=
  String.ofList ('"' :: s.toList.flatMap (quotedPiece '"') ++ ['"'])

/-- A character between single quotes. -/
def quotedChar (c : Char) : String :=
  String.ofList ('\'' :: quotedPiece '\'' c ++ ['\''])

/-- A character in printable ASCII: both quotes and the backslash are
escaped, and every character outside U+0020..U+007E is shown as its code
point. -/
def asciiPiece (c : Char) : List Char :=
  if c = '\t' then ['\\', 't']
  else if c = '\r' then ['\\', 'r']
  else if c = '\n' then ['\\', 'n']
  else if c = '\'' ∨ c = '"' ∨ c = '\\' then ['\\', c]
  else if 0x20 ≤ c.toNat ∧ c.toNat ≤ 0x7E then [c]
  else codePoint c

/-- A text in printable ASCII. -/
def asciiOnly (s : String) : String := String.ofList (s.toList.flatMap asciiPiece)

end DataVault.Text
