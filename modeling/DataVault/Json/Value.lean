/-
DataVault.Json.Value — JSON values and their two written forms.

`compact` writes a value without any blank; the hashes of a run are taken
over this form, so its member order is the order of the list. `pretty`
writes one member to a line, indented by two spaces a level, with empty
lists and objects on one line.
-/
import DataVault.Text.Hex

namespace DataVault.Json

open DataVault.Text

/-! ## 1. Values -/

inductive Value where
  | null
  | bool (b : Bool)
  | number (n : Nat)
  | string (s : String)
  | array (items : List Value)
  /-- Members in the order in which they are written. -/
  | object (members : List (String × Value))

/-- A list of texts. -/
def Value.strings (texts : List String) : Value := .array (texts.map .string)

/-- A text, or null where there is none. -/
def Value.stringOrNull : Option String → Value
  | some s => .string s
  | none => .null

/-! ## 2. Strings -/

/-- A character of a string: quotes and backslashes are escaped, control
characters below U+0020 get their short escape or four digits, and all else
is kept. -/
def stringPiece (c : Char) : List Char :=
  if c = '"' then ['\\', '"']
  else if c = '\\' then ['\\', '\\']
  else if c = '\x08' then ['\\', 'b']
  else if c = '\t' then ['\\', 't']
  else if c = '\n' then ['\\', 'n']
  else if c = '\x0c' then ['\\', 'f']
  else if c = '\r' then ['\\', 'r']
  else if c.toNat < 0x20 then ['\\', 'u'] ++ hexPadded 4 c.toNat
  else [c]

/-- A text as a JSON string. -/
def stringText (s : String) : String :=
  String.ofList ('"' :: s.toList.flatMap stringPiece ++ ['"'])

/-! ## 3. Written forms -/

namespace Value

mutual

/-- The value without blanks. -/
def compact : Value → String
  | null => "null"
  | bool true => "true"
  | bool false => "false"
  | number n => toString n
  | string s => stringText s
  | array items => "[" ++ String.intercalate "," (compactItems items) ++ "]"
  | object members => "\x7b" ++ String.intercalate "," (compactMembers members) ++ "\x7d"

def compactItems : List Value → List String
  | [] => []
  | v :: vs => compact v :: compactItems vs

def compactMembers : List (String × Value) → List String
  | [] => []
  | (name, v) :: rest => (stringText name ++ ":" ++ compact v) :: compactMembers rest

end

/-- A new line, indented to the level. -/
def newLine (level : Nat) : String := "\n" ++ String.join (List.replicate level "  ")

/-- Brackets around written items, one to a line; empty brackets stay
together. -/
def bracketed (level : Nat) (left right : String) (items : List String) : String :=
  if items.isEmpty then left ++ right
  else
    left ++ newLine (level + 1) ++ String.intercalate ("," ++ newLine (level + 1)) items ++
      newLine level ++ right

mutual

/-- The value over several lines, where it starts at the given level. -/
def prettyAt (level : Nat) : Value → String
  | array items => bracketed level "[" "]" (prettyItems (level + 1) items)
  | object members => bracketed level "\x7b" "\x7d" (prettyMembers (level + 1) members)
  | null => "null"
  | bool true => "true"
  | bool false => "false"
  | number n => toString n
  | string s => stringText s

def prettyItems (level : Nat) : List Value → List String
  | [] => []
  | v :: vs => prettyAt level v :: prettyItems level vs

def prettyMembers (level : Nat) : List (String × Value) → List String
  | [] => []
  | (name, v) :: rest =>
      (stringText name ++ ": " ++ prettyAt level v) :: prettyMembers level rest

end

/-- The value over several lines. -/
def pretty (v : Value) : String := prettyAt 0 v

end Value

end DataVault.Json
