/-
DataVault.Yaml.Scalar — the texts of YAML scalars.

Plain and quoted scalars may run over several lines: the blanks and breaks
between two lines are folded into one space, or into the breaks after the
first one. Block scalars keep their lines (`|`) or fold them (`>`), and say
what becomes of the breaks at their end.
-/
import DataVault.Text.Hex
import DataVault.Yaml.Cursor

namespace DataVault.Yaml

open DataVault.Text

/-- How a scalar is written. -/
inductive Style where
  | plain
  | quoted
  | literal
  | folded
  deriving DecidableEq

/-! ## 1. Gaps between words -/

/-- Blanks and breaks that were passed inside a scalar. -/
structure Gap where
  /-- Blanks before any break. -/
  blanks : List Char
  /-- A break has been passed. -/
  broken : Bool
  /-- What the first break is read as. -/
  first : List Char
  /-- What the later ones are read as. -/
  more : List Char

namespace Gap

def none : Gap := ⟨[], false, [], []⟩

/-- Lines folded: one line feed becomes a space, several lose the first. -/
def folded (first more : List Char) : List Char :=
  if first = ['\n'] then if more.isEmpty then [' '] else more else first ++ more

/-- What the gap stands for between two words. -/
def text (g : Gap) : List Char := if g.broken then folded g.first g.more else g.blanks

/-- Passes blanks and breaks. After a break, a tab left of `indent` is
refused. -/
def read? (indent : Int) (fuel : Nat) (g : Gap) (c : Cursor) : Option (Gap × Cursor) :=
  match fuel, c.rest with
  | fuel + 1, d :: _ =>
      if isBlank d then
        if g.broken then
          if d = '\t' ∧ c.column < indent then Option.none
          else read? indent fuel g (c.skip 1)
        else read? indent fuel { g with blanks := g.blanks ++ [d] } (c.skip 1)
      else if isBreak d then
        if g.broken then read? indent fuel { g with more := g.more ++ c.breakText } c.nextLine
        else read? indent fuel ⟨[], true, c.breakText, []⟩ c.nextLine
      else some (g, c)
  | _, _ => some (g, c)

end Gap

/-! ## 2. Plain scalars -/

/-- A character that ends a plain scalar inside brackets. -/
def isFlowMark (c : Char) : Bool := ",[]\x7b\x7d".toList.contains c

/-- The characters up to the next blank or the end of the scalar. -/
def plainRun? (inFlow : Bool) : List Char → Option (List Char)
  | [] => some []
  | c :: cs =>
      if isBlank c || isBreak c then some []
      else if inFlow && c == ':' && (cs.head?.map fun d => isFlowMark d || d == '?').getD false then
        none
      else if (c == ':' && atBlank cs) || (inFlow && isFlowMark c) then some []
      else (plainRun? inFlow cs).map (c :: ·)

/-- A plain scalar after `text` and a gap: its text, the gap that follows
it, and the place after both. -/
def plain? (inFlow : Bool) (indent : Int) (fuel : Nat) (text : List Char) (g : Gap) (c : Cursor) :
    Option (List Char × Gap × Cursor) :=
  match fuel with
  | 0 => none
  | fuel + 1 =>
      if c.atDocumentMark || c.rest.head? == some '#' then some (text, g, c)
      else do
        let run ← plainRun? inFlow c.rest
        if run.isEmpty then some (text, g, c)
        else
          let text := text ++ g.text ++ run
          let c := c.skip run.length
          let (g, c) ← Gap.read? indent (c.rest.length + 1) Gap.none c
          if atBlank c.rest || (g.blanks.isEmpty && !g.broken) then some (text, g, c)
          else if !inFlow && c.column < indent then some (text, g, c)
          else plain? inFlow indent fuel text g c

/-! ## 3. Quoted scalars -/

/-- The character of a one-letter escape. -/
def escapedChar? : Char → Option Char
  | '0' => some '\x00'
  | 'a' => some '\x07'
  | 'b' => some '\x08'
  | 't' | '\t' => some '\t'
  | 'n' => some '\n'
  | 'v' => some '\x0b'
  | 'f' => some '\x0c'
  | 'r' => some '\r'
  | 'e' => some '\x1b'
  | ' ' => some ' '
  | '"' => some '"'
  | '/' => some '/'
  | '\\' => some '\\'
  | 'N' => some '\u0085'
  | '_' => some '\u00a0'
  | 'L' => some '\u2028'
  | 'P' => some '\u2029'
  | _ => none

/-- The number of digits that an escape by code point takes. -/
def escapeDigits : Char → Nat
  | 'x' => 2
  | 'u' => 4
  | 'U' => 8
  | _ => 0

/-- An escape after its backslash: the character and the length. -/
def escape? : List Char → Option (Char × Nat)
  | [] => none
  | e :: cs =>
      let count := escapeDigits e
      if count = 0 then (escapedChar? e).map (·, 1)
      else if cs.length < count then none
      else
        (hexNumber? (cs.take count)).bind fun n =>
          if n.isValidChar then some (Char.ofNat n, count + 1) else none

/-- The characters up to the next blank, break, closing quote or escaped
break, with the length of their written form. -/
def quotedRun? (single : Bool) (fuel : Nat) (cs : List Char) : Option (List Char × Nat) :=
  match fuel, cs with
  | fuel + 1, c :: rest =>
      let after (d : Char) (count : Nat) : Option (List Char × Nat) :=
        (quotedRun? single fuel (cs.drop count)).map fun (text, n) => (d :: text, n + count)
      if isBlank c || isBreak c then some ([], 0)
      else if single then
        if c = '\'' then if rest.head? == some '\'' then after '\'' 2 else some ([], 0)
        else after c 1
      else if c = '"' then some ([], 0)
      else if c = '\\' then
        if (rest.head?.map isBreak).getD false then some ([], 0)
        else (escape? rest).bind fun (d, n) => after d (n + 1)
      else after c 1
  | _, _ => some ([], 0)

/-- A quoted scalar after its opening quote and `text`. -/
def quoted? (single : Bool) (fuel : Nat) (text : List Char) (c : Cursor) :
    Option (List Char × Cursor) :=
  match fuel with
  | 0 => none
  | fuel + 1 =>
      if c.atDocumentMark || c.rest.isEmpty then none
      else do
        let (run, count) ← quotedRun? single (c.rest.length + 1) c.rest
        let text := text ++ run
        let c := c.skip count
        match c.rest with
        | [] => none
        | d :: _ =>
            if d = '\'' ∨ d = '"' then some (text, c.skip 1)
            else
              let (g, c) :=
                if d = '\\' then (⟨[], true, [], []⟩, (c.skip 1).nextLine) else (.none, c)
              let (g, c) ← Gap.read? 0 (c.rest.length + 1) g c
              quoted? single fuel (text ++ g.text) c

/-! ## 4. Block scalars -/

/-- What becomes of the breaks at the end of a block scalar. -/
inductive Chomping where
  | strip
  | clip
  | keep

/-- The chomping sign at the cursor. -/
def chomping? : List Char → Option Chomping
  | '+' :: _ => some .keep
  | '-' :: _ => some .strip
  | _ => none

/-- The indentation digit at the cursor; zero is refused. -/
def indentDigit? : List Char → Option (Option Nat)
  | c :: _ =>
      if c = '0' then none else if c.isDigit then some (some (c.toNat - 48)) else some none
  | [] => some none

/-- The signs of a block scalar, in either order. -/
def blockHeader? (c : Cursor) : Option (Chomping × Option Nat × Cursor) := do
  match chomping? c.rest with
  | some chomping =>
      let c := c.skip 1
      let digit ← indentDigit? c.rest
      some (chomping, digit, if digit.isSome then c.skip 1 else c)
  | none =>
      match ← indentDigit? c.rest with
      | none => some (.clip, none, c)
      | some n =>
          let c := c.skip 1
          match chomping? c.rest with
          | some chomping => some (chomping, some n, c.skip 1)
          | none => some (.clip, some n, c)

/-- Passes empty lines and the indentation of the next one. The answer holds
the breaks and the greatest column reached. While `indent` is not known, all
spaces are indentation. -/
def blockBreaks? (indent : Option Nat) (fuel : Nat) (breaks : List Char) (greatest : Nat)
    (c : Cursor) : Option (List Char × Nat × Cursor) :=
  match fuel with
  | 0 => none
  | fuel + 1 =>
      let spaces := (c.rest.takeWhile (· == ' ')).length
      let count :=
        match indent with
        | none => spaces
        | some n => min spaces (n - c.column)
      let c := c.skip count
      let greatest := max greatest c.column
      let inside :=
        match indent with
        | none => true
        | some n => c.column < n
      if inside && c.rest.head? == some '\t' then none
      else if c.atBreak then
        blockBreaks? indent fuel (breaks ++ c.breakText) greatest c.nextLine
      else some (breaks, greatest, c)

/-- The text of a block scalar so far, with what has to be written before
the next line. -/
structure BlockDraft where
  text : List Char
  /-- The break after the last line. -/
  first : List Char
  /-- The breaks of the empty lines after it. -/
  more : List Char
  /-- The last line started with a blank. -/
  blankLed : Bool

/-- Adds a line. -/
def BlockDraft.add (folds : Bool) (d : BlockDraft) (line lineBreak : List Char) : BlockDraft :=
  let startsBlank := (line.head?.map isBlank).getD false
  let joint :=
    if folds && d.first == ['\n'] && !d.blankLed && !startsBlank then
      if d.more.isEmpty then [' '] else d.more
    else d.first ++ d.more
  ⟨d.text ++ joint ++ line, lineBreak, [], startsBlank⟩

/-- The lines of a block scalar. -/
def blockLines? (folds : Bool) (indent : Nat) (fuel : Nat) (d : BlockDraft) (c : Cursor) :
    Option (BlockDraft × Cursor) :=
  match fuel with
  | 0 => none
  | fuel + 1 =>
      if c.column ≠ indent ∨ c.rest.isEmpty then some (d, c)
      else do
        let line := c.rest.takeWhile (!isBreak ·)
        let c := c.skip line.length
        let d := d.add folds line c.breakText
        let c := c.nextLine
        let (breaks, _, c) ← blockBreaks? (some indent) (c.rest.length + 1) [] 0 c
        blockLines? folds indent fuel { d with more := breaks } c

/-- A block scalar after its first sign, inside a block indented to
`parent`. -/
def block? (folds : Bool) (parent : Int) (c : Cursor) : Option (List Char × Cursor) := do
  let (chomping, digit, c) ← blockHeader? c
  let c := c.skipWhile isBlank
  let c := if c.rest.head? == some '#' then c.skipToBreak else c
  if !c.rest.isEmpty && !c.atBreak then none
  else
    let c := c.nextLine
    let given := digit.map fun n => (max parent 0).toNat + n
    let (breaks, greatest, c) ← blockBreaks? given (c.rest.length + 1) [] 0 c
    let indent := given.getD (max (max greatest (parent + 1).toNat) 1)
    let (d, c) ← blockLines? folds indent (c.rest.length + 1) ⟨[], [], breaks, false⟩ c
    let tail :=
      match chomping with
      | .strip => []
      | .clip => d.first
      | .keep => d.first ++ d.more
    some (d.text ++ tail, c)

end DataVault.Yaml
