/-
DataVault.Json.Reader — reading JSON text.

The grammar is the standard one: one value with blanks around it, no
comments, no trailing commas, no control characters inside strings.
Three kinds of grammatical text have no value and become unreadable nodes,
which may stand only where nothing reads them: a string with half of a
surrogate pair, a number beyond the doubles, and lists and tables more than
127 levels deep.
-/
import DataVault.Document.Node
import DataVault.Json.Number
import DataVault.Text.Hex
import DataVault.Text.Numeral

namespace DataVault.Json

open DataVault.Document DataVault.Text

/-! ## 1. Strings -/

/-- A piece of a string: a character, or a code unit given by its four
digits. -/
inductive Piece where
  | char (c : Char)
  | unit (n : Nat)

/-- The character of a short escape. -/
def shortEscape? : Char → Option Char
  | '"' => some '"'
  | '\\' => some '\\'
  | '/' => some '/'
  | 'b' => some '\x08'
  | 'f' => some '\x0c'
  | 'n' => some '\n'
  | 'r' => some '\r'
  | 't' => some '\t'
  | _ => none

/-- The pieces up to the closing quote, and the text after it. -/
def pieces? : List Char → Option (List Piece × List Char)
  | [] => none
  | '"' :: rest => some ([], rest)
  | '\\' :: 'u' :: a :: b :: c :: d :: rest => do
      let n ← hexNumber? [a, b, c, d]
      let (ps, after) ← pieces? rest
      some (.unit n :: ps, after)
  | '\\' :: e :: rest => do
      let c ← shortEscape? e
      let (ps, after) ← pieces? rest
      some (.char c :: ps, after)
  | c :: rest =>
      if c.toNat < 0x20 then none
      else do
        let (ps, after) ← pieces? rest
        some (.char c :: ps, after)

/-- The characters of the pieces, where surrogates come in pairs. -/
def charsOf? : List Piece → Option (List Char)
  | [] => some []
  | .char c :: ps => (charsOf? ps).map (c :: ·)
  | .unit high :: .unit low :: ps =>
      if 0xD800 ≤ high ∧ high < 0xDC00 then
        if 0xDC00 ≤ low ∧ low < 0xE000 then
          let n := 0x10000 + (high - 0xD800) * 0x400 + (low - 0xDC00)
          (charsOf? ps).map (Char.ofNat n :: ·)
        else none
      else if 0xDC00 ≤ high ∧ high < 0xE000 then none
      else (charsOf? (.unit low :: ps)).map (Char.ofNat high :: ·)
  | .unit n :: ps =>
      if 0xD800 ≤ n ∧ n < 0xE000 then none else (charsOf? ps).map (Char.ofNat n :: ·)

/-- The text of the pieces, if they have one. -/
def textOf? (ps : List Piece) : Option String := (charsOf? ps).map String.ofList

/-! ## 2. Numbers -/

/-- At least one digit, and the text after the digits. -/
def digits? (cs : List Char) : Option (List Char × List Char) :=
  let (digits, rest) := cs.span Char.isDigit
  if digits.isEmpty then none else some (digits, rest)

/-- The digits of an integer, without a leading zero. -/
def integerDigits? (cs : List Char) : Option (List Char × List Char) :=
  match digits? cs with
  | some ('0' :: _ :: _, _) => none
  | other => other

/-- The digits after a point, if there is one. -/
def fraction? : List Char → Option (List Char × List Char)
  | '.' :: cs => digits? cs
  | cs => some ([], cs)

/-- An integer with an optional sign. -/
def signedDigits? : List Char → Option (Int × List Char)
  | '-' :: cs => (digits? cs).map fun (ds, rest) => (-(decimalValue ds : Int), rest)
  | '+' :: cs => (digits? cs).map fun (ds, rest) => ((decimalValue ds : Int), rest)
  | cs => (digits? cs).map fun (ds, rest) => ((decimalValue ds : Int), rest)

/-- The exponent, zero if there is none. -/
def exponent? : List Char → Option (Int × List Char)
  | 'e' :: cs | 'E' :: cs => signedDigits? cs
  | cs => some (0, cs)

/-- A number without its sign. -/
def number? (cs : List Char) : Option (Node × List Char) := do
  let (whole, rest) ← integerDigits? cs
  let (fraction, rest) ← fraction? rest
  let (exponent, rest) ← exponent? rest
  some (if hasNoValue whole fraction exponent then .unreadable else .scalar .other, rest)

/-! ## 3. Values -/

def isSpace (c : Char) : Bool := c == ' ' || c == '\n' || c == '\t' || c == '\r'

def skipSpace (cs : List Char) : List Char := cs.dropWhile isSpace

/-- The greatest depth of lists and tables that are read. -/
def maxDepth : Nat := 127

/-- A list or table, unless it is too deep. -/
def nested (depth : Nat) (n : Node) : Node := if depth < maxDepth then n else .unreadable

/-- A table, unless one of its names has no text. -/
def tableOf (members : List (Option String × Node)) : Node :=
  match members.mapM fun (name, value) => name.map (·, value) with
  | some members => .named members
  | none => .unreadable

mutual

/-- A value at the start of the text; `depth` lists and tables are open
around it. -/
def value? (fuel depth : Nat) (cs : List Char) : Option (Node × List Char) :=
  match fuel with
  | 0 => none
  | fuel + 1 =>
      match cs with
      | 'n' :: 'u' :: 'l' :: 'l' :: rest => some (.scalar .null, rest)
      | 't' :: 'r' :: 'u' :: 'e' :: rest => some (.scalar (.ofBool true), rest)
      | 'f' :: 'a' :: 'l' :: 's' :: 'e' :: rest => some (.scalar (.ofBool false), rest)
      | '"' :: rest => do
          let (ps, after) ← pieces? rest
          let node :=
            match textOf? ps with
            | some s => .scalar (.ofText s)
            | none => .unreadable
          some (node, after)
      | '[' :: rest =>
          match skipSpace rest with
          | ']' :: after => some (nested depth (.list []), after)
          | inner => do
              let (items, after) ← items? fuel (depth + 1) inner
              some (nested depth (.list items), after)
      | '\x7b' :: rest =>
          match skipSpace rest with
          | '\x7d' :: after => some (nested depth (.table []), after)
          | inner => do
              let (members, after) ← members? fuel (depth + 1) inner
              some (nested depth (tableOf members), after)
      | '-' :: rest => number? rest
      | _ => number? cs

/-- Items up to the closing bracket; the text starts with an item. -/
def items? (fuel depth : Nat) (cs : List Char) : Option (List Node × List Char) :=
  match fuel with
  | 0 => none
  | fuel + 1 => do
      let (item, rest) ← value? fuel depth cs
      match skipSpace rest with
      | ']' :: after => some ([item], after)
      | ',' :: more => do
          let (items, after) ← items? fuel depth (skipSpace more)
          some (item :: items, after)
      | _ => none

/-- Members up to the closing brace; the text starts with a name. -/
def members? (fuel depth : Nat) (cs : List Char) :
    Option (List (Option String × Node) × List Char) :=
  match fuel with
  | 0 => none
  | fuel + 1 =>
      match cs with
      | '"' :: rest => do
          let (ps, rest) ← pieces? rest
          let ':' :: rest := skipSpace rest | none
          let (value, rest) ← value? fuel depth (skipSpace rest)
          match skipSpace rest with
          | '\x7d' :: after => some ([(textOf? ps, value)], after)
          | ',' :: more => do
              let (members, after) ← members? fuel depth (skipSpace more)
              some ((textOf? ps, value) :: members, after)
          | _ => none
      | _ => none

end

/-- The value that a text holds. Every call takes a character or closes a
level, so twice the length of the text is enough fuel. -/
def read? (text : String) : Option Node := do
  let cs := text.toList
  let (node, rest) ← value? (2 * cs.length + 2) 0 (skipSpace cs)
  if (skipSpace rest).isEmpty then some node else none

end DataVault.Json
