/-
DataVault.Toml.Reader — reading TOML 1.0 text.

A document is a list of lines: keys with values, table headers, comments
and empty lines. A value may run over several lines inside brackets only.
Text that breaks a rule anywhere is refused as a whole.
-/
import DataVault.Toml.Scalar
import DataVault.Toml.Table

namespace DataVault.Toml

open DataVault.Document

/-! ## 1. Keys -/

def isBareKeyChar (c : Char) : Bool := c.isAlphanum || c == '_' || c == '-'

/-- One part of a key. -/
def simpleKey? (cs : List Char) : Option (String × List Char) :=
  match cs with
  | '"' :: rest => (basicString? (rest.length + 1) rest).map fun (k, r) => (String.ofList k, r)
  | '\'' :: rest => (literalString? rest).map fun (k, r) => (String.ofList k, r)
  | _ =>
      let bare := cs.takeWhile isBareKeyChar
      if bare.isEmpty then none else some (String.ofList bare, cs.drop bare.length)

/-- The parts of a key with dots between them, and the text after the blanks
that follow. -/
def key? (fuel : Nat) (cs : List Char) : Option (List String × List Char) :=
  match fuel with
  | 0 => none
  | fuel + 1 => do
      let (part, rest) ← simpleKey? (skipSpace cs)
      match skipSpace rest with
      | '.' :: rest => (key? fuel rest).map fun (parts, rest) => (part :: parts, rest)
      | rest => some ([part], rest)

/-- The greatest depth of nested values, and the greatest length of a key. -/
def maxDepth : Nat := 79

/-- A key that is not too long, as the way to its last part and that part. -/
def keyPath? (cs : List Char) : Option ((List String × String) × List Char) := do
  let (parts, rest) ← key? (cs.length + 1) cs
  if maxDepth < parts.length then none else (Draft.splitPath? parts).map (·, rest)

/-! ## 2. Values -/

/-- The text after blanks, line breaks and comments inside brackets. -/
def skipFiller (inComment : Bool) : List Char → List Char
  | [] => []
  | c :: cs =>
      if c = '\n' then skipFiller false cs
      else if c = '\r' then
        match cs with
        | '\n' :: _ => skipFiller false cs
        | _ => c :: cs
      else if inComment then
        if isPlain c then skipFiller true cs else c :: cs
      else if isSpace c then skipFiller false cs
      else if c = '#' then skipFiller true cs
      else c :: cs

mutual

/-- A value at the start of the text, with the text after it. -/
def value? (fuel depth : Nat) (cs : List Char) : Option (Node × List Char) :=
  match fuel with
  | 0 => none
  | fuel + 1 =>
      match cs with
      | '"' :: _ | '\'' :: _ =>
          (string? cs).map fun (text, rest) => (.scalar (.ofText (String.ofList text)), rest)
      | '[' :: rest =>
          if depth < maxDepth then
            (items? fuel (depth + 1) (skipFiller false rest)).map fun (items, rest) =>
              (.list items, rest)
          else none
      | '\x7b' :: rest =>
          if depth < maxDepth then
            match skipSpace rest with
            | '\x7d' :: rest => some (.table [], rest)
            | rest =>
                (pairs? fuel (depth + 1) [] rest).map fun (members, rest) =>
                  (.named (memberNodes members), rest)
          else none
      | _ => bare? cs

/-- Items up to the closing bracket; a comma may follow the last one. -/
def items? (fuel depth : Nat) (cs : List Char) : Option (List Node × List Char) :=
  match fuel with
  | 0 => none
  | fuel + 1 =>
      match cs with
      | ']' :: rest => some ([], rest)
      | _ => do
          let (item, rest) ← value? fuel depth cs
          match skipFiller false rest with
          | ']' :: rest => some ([item], rest)
          | ',' :: rest => do
              let (items, rest) ← items? fuel depth (skipFiller false rest)
              some (item :: items, rest)
          | _ => none

/-- Keys with values up to the closing brace, added to `members`. -/
def pairs? (fuel depth : Nat) (members : Members) (cs : List Char) :
    Option (Members × List Char) :=
  match fuel with
  | 0 => none
  | fuel + 1 => do
      let ((path, key), rest) ← keyPath? cs
      let '=' :: rest := rest | none
      let (value, rest) ← value? fuel depth (skipSpace rest)
      let members ← members.insert? path key value
      match skipSpace rest with
      | '\x7d' :: rest => some (members, rest)
      | ',' :: rest => pairs? fuel depth members rest
      | _ => none

end

/-! ## 3. Lines -/

/-- The text of the next line, where nothing but blanks and a comment is
left on this one. -/
def lineEnd? (cs : List Char) : Option (List Char) :=
  let rest :=
    match skipSpace cs with
    | '#' :: comment => comment.dropWhile isPlain
    | rest => rest
  if rest.isEmpty then some [] else lineBreak? rest

/-- A header up to its closing brackets. -/
def header? (closing : List Char) (cs : List Char) : Option (List String × List Char) := do
  let ((path, key), rest) ← keyPath? cs
  if closing.isPrefixOf rest then some (path ++ [key], rest.drop closing.length) else none

/-- Reads one line that is not empty; the text does not start with blanks. -/
def line? (d : Draft) (cs : List Char) : Option (Draft × List Char) :=
  match cs with
  | '[' :: '[' :: rest => do
      let (path, rest) ← header? [']', ']'] rest
      some (← d.openItem? path, rest)
  | '[' :: rest => do
      let (path, rest) ← header? [']'] rest
      some (← d.openTable? path, rest)
  | _ => do
      let ((path, key), rest) ← keyPath? cs
      let '=' :: rest := rest | none
      let rest := skipSpace rest
      let (value, rest) ← value? (2 * rest.length + 2) 0 rest
      some (← d.insert? path key value, rest)

/-- Reads all lines. -/
def lines? (fuel : Nat) (d : Draft) (cs : List Char) : Option Draft :=
  match fuel with
  | 0 => none
  | fuel + 1 =>
      let cs := skipSpace cs
      if cs.isEmpty then some d
      else
        match lineEnd? cs with
        | some rest => lines? fuel d rest
        | none => do
            let (d, rest) ← line? d cs
            lines? fuel d (← lineEnd? rest)

/-- The table that a text holds. A byte order mark may stand in front. -/
def read? (text : String) : Option Node := do
  let cs :=
    match text.toList with
    | '\uFEFF' :: cs => cs
    | cs => cs
  let d ← lines? (cs.length + 1) Draft.empty cs
  let members ← d.close?
  some (.named (memberNodes members))

end DataVault.Toml
