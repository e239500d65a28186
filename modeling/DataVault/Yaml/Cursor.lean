/-
DataVault.Yaml.Cursor — a place in YAML text.

YAML takes its structure from lines and columns, so the text that is left
is kept together with its line, its column and the number of octets before
it. Breaks end a line; `\r\n` is one break, and every break but U+2028 and
U+2029 is read as a line feed.
-/
namespace DataVault.Yaml

/-! ## 1. Characters -/

def isBlank (c : Char) : Bool := c == ' ' || c == '\t'

def isBreak (c : Char) : Bool :=
  c == '\r' || c == '\n' || c == '\u0085' || c == '\u2028' || c == '\u2029'

/-- A character that may stand in a text at all. -/
def isAllowed (c : Char) : Bool :=
  let n := c.toNat
  n == 0x09 || n == 0x0A || n == 0x0D || (0x20 ≤ n && n ≤ 0x7E) || n == 0x85 ||
    (0xA0 ≤ n && n ≤ 0xFFFD) || 0x10000 ≤ n

/-- A character of an anchor name or a tag handle. -/
def isWord (c : Char) : Bool := c.isAlphanum || c == '_' || c == '-'

/-- The text starts with a blank or a break, or is at its end. -/
def atBlank : List Char → Bool
  | [] => true
  | c :: _ => isBlank c || isBreak c

/-- The text starts with three equal marks and a blank, a break or its end. -/
def atMarks (mark : Char) : List Char → Bool
  | a :: b :: c :: rest => a == mark && b == mark && c == mark && atBlank rest
  | _ => false

/-! ## 2. Places -/

/-- The text that is left, with its place. -/
structure Cursor where
  rest : List Char
  line : Nat
  column : Nat
  /-- Octets before the place. -/
  index : Nat

namespace Cursor

/-- The start of a text. -/
def start (cs : List Char) : Cursor := ⟨cs, 0, 0, 0⟩

/-- The number of octets that characters take. -/
def octetCount (cs : List Char) : Nat := cs.foldl (fun n c => n + c.utf8Size) 0

/-- Goes on by characters of the same line. -/
def skip (c : Cursor) (count : Nat) : Cursor :=
  ⟨c.rest.drop count, c.line, c.column + count, c.index + octetCount (c.rest.take count)⟩

/-- Goes on by the characters in front that satisfy the test, none of them a
break. -/
def skipWhile (test : Char → Bool) (c : Cursor) : Cursor :=
  c.skip (c.rest.takeWhile test).length

/-- What a break at the cursor is read as; nothing where there is none. -/
def breakText (c : Cursor) : List Char :=
  match c.rest with
  | d :: _ => if d == '\u2028' || d == '\u2029' then [d] else if isBreak d then ['\n'] else []
  | [] => []

/-- Goes on to the next line, if a break is at the cursor. -/
def nextLine (c : Cursor) : Cursor :=
  match c.rest with
  | '\r' :: '\n' :: rest => ⟨rest, c.line + 1, 0, c.index + 2⟩
  | d :: rest => if isBreak d then ⟨rest, c.line + 1, 0, c.index + d.utf8Size⟩ else c
  | [] => c

def atBlankChar (c : Cursor) : Bool := (c.rest.head?.map isBlank).getD false

def atBreak (c : Cursor) : Bool := (c.rest.head?.map isBreak).getD false

/-- A line of three dashes or three dots starts here. -/
def atDocumentMark (c : Cursor) : Bool :=
  c.column == 0 && (atMarks '-' c.rest || atMarks '.' c.rest)

/-- Goes on to the end of the line. -/
def skipToBreak (c : Cursor) : Cursor := c.skipWhile (!isBreak ·)

end Cursor

end DataVault.Yaml
