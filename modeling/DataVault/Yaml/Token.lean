/-
DataVault.Yaml.Token — the tokens of YAML text.

Block structure is in the columns, so reading keeps the stack of
indentations and turns each change into a start or an end token. A mapping
key shows itself only by the `:` after it. Every place where a key could
start is therefore kept, one for each level of brackets, and when the `:`
arrives a key token is put in front of what stands there. Such a key has to
be on one line and at most 1024 octets long.
-/
import DataVault.Yaml.Scalar
import DataVault.Yaml.Tag

namespace DataVault.Yaml

inductive Token where
  | streamEnd
  | versionDirective (accepted : Bool)
  | tagDirective (handle : String) (start : Octets)
  | documentStart
  | documentEnd
  | blockSequenceStart
  | blockMappingStart
  | blockEnd
  | flowSequenceStart
  | flowSequenceEnd
  | flowMappingStart
  | flowMappingEnd
  | blockEntry
  | flowEntry
  | key
  | value
  | reference (name : String)
  | anchor (name : String)
  | tag (handle : String) (suffix : Octets)
  | scalar (text : String) (style : Style)
  deriving DecidableEq

/-! ## 1. State -/

/-- A place where a mapping key may have started. -/
structure KeyPlace where
  /-- Position among the tokens. -/
  position : Nat
  line : Nat
  column : Nat
  index : Nat
  /-- Nothing but a key may stand here. -/
  required : Bool

structure Scan where
  cursor : Cursor
  /-- Column of the innermost block; -1 outside all blocks. -/
  indent : Int
  outer : List Int
  /-- The place of a key, for each level of brackets, the innermost first. -/
  keys : List (Option KeyPlace)
  /-- A key may start at the next token. -/
  keyAllowed : Bool
  tokens : Array Token

namespace Scan

def start (cs : List Char) : Scan := ⟨.start cs, -1, [], [none], true, #[]⟩

/-- The text that is left. -/
def rest (s : Scan) : List Char := s.cursor.rest

def column (s : Scan) : Int := s.cursor.column

/-- The cursor is inside brackets. -/
def inFlow (s : Scan) : Bool := s.keys.length > 1

def push (s : Scan) (t : Token) : Scan := { s with tokens := s.tokens.push t }

def allowKey (s : Scan) (allowed : Bool) : Scan := { s with keyAllowed := allowed }

/-- Takes so many characters as a token. -/
def take (s : Scan) (count : Nat) (t : Token) : Scan :=
  { s with cursor := s.cursor.skip count, tokens := s.tokens.push t }

/-! ## 2. Indentation -/

/-- Closes the blocks that are indented more than `column`. -/
def closeBlocks (column : Int) (indent : Int) (tokens : Array Token) :
    List Int → Int × List Int × Array Token
  | [] => (indent, [], tokens)
  | o :: outer =>
      if indent > column then closeBlocks column o (tokens.push .blockEnd) outer
      else (indent, o :: outer, tokens)

/-- Closes blocks, unless the cursor is inside brackets. -/
def unroll (column : Int) (s : Scan) : Scan :=
  if s.inFlow then s
  else
    let (indent, outer, tokens) := closeBlocks column s.indent s.tokens s.outer
    { s with indent, outer, tokens }

/-- Opens a block at a column deeper than the current one; its token goes to
a position among the tokens. -/
def openBlock (column : Int) (position : Nat) (t : Token) (s : Scan) : Scan :=
  if !s.inFlow && s.indent < column then
    { s with
      indent := column
      outer := s.indent :: s.outer
      tokens := s.tokens.insertIdxIfInBounds position t }
  else s

/-! ## 3. Keys -/

/-- Sets the place of a key at the innermost level. -/
def setKey (s : Scan) (key : Option KeyPlace) : Scan := { s with keys := key :: s.keys.drop 1 }

/-- Gives up the place of a key; one that is required is an error. -/
def dropKey? (s : Scan) : Option Scan :=
  match s.keys.head?.join with
  | some k => if k.required then none else some (s.setKey none)
  | none => some (s.setKey none)

/-- Remembers that a key may start here. -/
def saveKey? (s : Scan) : Option Scan :=
  if s.keyAllowed then
    s.dropKey?.map fun s =>
      s.setKey (some ⟨s.tokens.size, s.cursor.line, s.cursor.column, s.cursor.index,
        !s.inFlow && s.indent == s.column⟩)
  else some s

/-- A key place that is still on this line and near enough. -/
def isFresh (c : Cursor) (k : KeyPlace) : Bool := k.line == c.line && c.index ≤ k.index + 1024

/-- Gives up the places that are too far back. -/
def dropStale? (s : Scan) : Option Scan :=
  (s.keys.mapM fun key =>
    match key with
    | some k =>
        if isFresh s.cursor k then some (some k) else if k.required then none else some none
    | none => some none).map fun keys => { s with keys }

/-! ## 4. Between tokens -/

/-- Passes blanks, comments and breaks. A tab is a blank only where no key
can start, and a byte order mark may start a line, where it takes a
column. -/
def skipToToken (fuel : Nat) (s : Scan) : Scan :=
  match fuel, s.rest with
  | fuel + 1, c :: _ =>
      if c = ' ' ∨ (c = '\t' ∧ (s.inFlow ∨ !s.keyAllowed)) ∨ (c = '\uFEFF' ∧ s.column = 0) then
        skipToToken fuel { s with cursor := s.cursor.skip 1 }
      else if c = '#' then skipToToken fuel { s with cursor := s.cursor.skipToBreak }
      else if isBreak c then
        let s := { s with cursor := s.cursor.nextLine }
        skipToToken fuel (if s.inFlow then s else s.allowKey true)
      else s
  | _, _ => s

/-! ## 5. Directives -/

/-- A number of at most nine digits. -/
def versionNumber? (c : Cursor) : Option (Nat × Cursor) :=
  let digits := c.rest.takeWhile Char.isDigit
  if digits.isEmpty ∨ digits.length > 9 then none
  else some ((String.ofList digits).toNat?.getD 0, c.skip digits.length)

/-- The characters of a tag. -/
def isTagChar (inBrackets : Bool) (c : Char) : Bool :=
  isWord c || ";/?:@&=+$.!~*'()".toList.contains c ||
    (inBrackets && ",[]".toList.contains c)

/-- How many more octets belong to an escaped character after an octet of
it, where `owed` were to come. -/
def owedAfter? (owed octet : Nat) : Option Nat :=
  match owed with
  | 0 =>
      if octet < 0x80 then some 0
      else if 0xC0 ≤ octet ∧ octet < 0xE0 then some 1
      else if 0xE0 ≤ octet ∧ octet < 0xF0 then some 2
      else if 0xF0 ≤ octet ∧ octet < 0xF8 then some 3
      else none
  | owed + 1 => if 0x80 ≤ octet ∧ octet < 0xC0 then some owed else none

/-- The octets of a tag, where `%` and two digits stand for an octet, and the
length of their written form. Of an escaped character, `owed` octets are
still to come. -/
def tagOctets? (inBrackets : Bool) : Nat → List Char → Option (Octets × Nat)
  | owed, '%' :: a :: b :: rest => do
      let n ← Text.hexNumber? [a, b]
      let (octets, count) ← tagOctets? inBrackets (← owedAfter? owed n) rest
      some (n.toUInt8 :: octets, count + 3)
  | 0, c :: rest =>
      if isTagChar inBrackets c then
        (tagOctets? inBrackets 0 rest).map fun (octets, count) =>
          (c.toNat.toUInt8 :: octets, count + 1)
      else if c = '%' then none
      else some ([], 0)
  | 0, [] => some ([], 0)
  | _ + 1, _ => none

/-- A part of a tag: its octets up to the first zero, the length of its
written form, and the place after it. -/
def tagPart? (inBrackets : Bool) (c : Cursor) : Option (Octets × Nat × Cursor) :=
  (tagOctets? inBrackets 0 c.rest).map fun (octets, count) =>
    (octets.takeWhile (· != 0), count, c.skip count)

/-- A tag handle, from its exclamation mark on. -/
def tagHandle? (directive : Bool) (c : Cursor) : Option (List Char × Cursor) :=
  if c.rest.head? ≠ some '!' then none
  else
    let word := (c.rest.drop 1).takeWhile isWord
    let after := c.skip (1 + word.length)
    if after.rest.head? == some '!' then some ('!' :: word ++ ['!'], after.skip 1)
    else if directive && !word.isEmpty then none
    else some ('!' :: word, after)

/-- A directive after its percent sign. -/
def directive? (c : Cursor) : Option (Token × Cursor) := do
  let name := c.rest.takeWhile isWord
  let c := c.skip name.length
  if name.isEmpty || !atBlank c.rest then none
  else
    let c := c.skipWhile isBlank
    let (token, c) ←
      if name = "YAML".toList then do
        let (major, c) ← versionNumber? c
        if c.rest.head? ≠ some '.' then none
        else
          let (minor, c) ← versionNumber? (c.skip 1)
          some (Token.versionDirective (major == 1 && (minor == 1 || minor == 2)), c)
      else if name = "TAG".toList then do
        let (handle, c) ← tagHandle? true c
        if !c.atBlankChar then none
        else
          let c := c.skipWhile isBlank
          let (start, count, c) ← tagPart? true c
          if count = 0 || !atBlank c.rest then none
          else some (Token.tagDirective (String.ofList handle) start, c)
      else none
    let c := c.skipWhile isBlank
    let c := if c.rest.head? == some '#' then c.skipToBreak else c
    if c.rest.isEmpty || c.atBreak then some (token, c.nextLine) else none

/-! ## 6. Properties -/

/-- The name of an anchor or an alias, after its sign. -/
def anchorName? (c : Cursor) : Option (String × Cursor) :=
  let name := c.rest.takeWhile isWord
  let c := c.skip name.length
  let ended :=
    match c.rest with
    | [] => true
    | d :: _ => isBlank d || isBreak d || "?:,]\x7d%@`".toList.contains d
  if name.isEmpty || !ended then none else some (String.ofList name, c)

/-- A tag, from its exclamation mark on. The mark alone is a tag of its
own. -/
def tag? (inFlow : Bool) (c : Cursor) : Option (Token × Cursor) := do
  let (handle, suffix, c) ←
    match c.rest with
    | '!' :: '<' :: _ => do
        let (suffix, count, c) ← tagPart? true (c.skip 2)
        if count = 0 || c.rest.head? ≠ some '>' then none
        else some ([], suffix, c.skip 1)
    | _ => do
        let (handle, c) ← tagHandle? false c
        let (suffix, count, c) ← tagPart? false c
        if handle.length > 1 && handle.getLast? == some '!' then
          if count = 0 then none else some (handle, suffix, c)
        else
          let suffix := octetsOf (String.ofList (handle.drop 1)) ++ suffix
          some (if suffix.isEmpty then ([], octetsOf "!", c) else (['!'], suffix, c))
  if atBlank c.rest || (inFlow && c.rest.head? == some ',') then
    some (.tag (String.ofList handle) suffix, c)
  else none

/-! ## 7. Tokens -/

/-- Ends all blocks and forgets the place of a key. -/
def endBlocks? (s : Scan) : Option Scan := ((s.unroll (-1)).dropKey?).map (·.allowKey false)

/-- Replaces the cursor and adds a token. -/
def withToken (s : Scan) (t : Token) (c : Cursor) : Scan :=
  { s with cursor := c, tokens := s.tokens.push t }

/-- An opening bracket. -/
def openFlow? (s : Scan) (t : Token) : Option Scan :=
  s.saveKey?.map fun s => ({ s with keys := none :: s.keys, keyAllowed := true }).take 1 t

/-- A closing bracket. -/
def closeFlow? (s : Scan) (t : Token) : Option Scan :=
  s.dropKey?.map fun s =>
    let keys := if s.inFlow then s.keys.drop 1 else s.keys
    ({ s with keys, keyAllowed := false }).take 1 t

/-- A sign that starts an entry or a key of a block; it opens the block if it
is the first one. -/
def blockSign? (s : Scan) (start : Token) : Option Scan :=
  if s.inFlow then some s
  else if s.keyAllowed then some (s.openBlock s.column s.tokens.size start)
  else none

/-- The sign between a key and its value. -/
def valueSign? (s : Scan) : Option Scan :=
  match s.keys.head?.join with
  | some k =>
      let s := { s with tokens := s.tokens.insertIdxIfInBounds k.position .key }
      let s := (s.openBlock k.column k.position .blockMappingStart).setKey none
      some ((s.allowKey false).take 1 .value)
  | none =>
      (s.blockSign? .blockMappingStart).map fun s => (s.allowKey (!s.inFlow)).take 1 .value

/-- A scalar, after the place of a key has been saved. -/
def scalar? (s : Scan) (style : Style) (keyAfter : Bool)
    (read : Option (List Char × Cursor)) : Option Scan :=
  read.map fun (text, c) =>
    (s.allowKey keyAfter).withToken (.scalar (String.ofList text) style) c

/-- A plain scalar may start with the characters. -/
def startsPlain (inFlow : Bool) : List Char → Bool
  | [] => false
  | c :: cs =>
      !(isBlank c || "-?:,[]\x7b\x7d#&*!|>'\"%@`".toList.contains c) ||
        (c == '-' && !(cs.head?.map isBlank).getD false) ||
        (!inFlow && (c == '?' || c == ':') && !atBlank cs)

/-- Reads the token at the cursor; `c` is the character there and `cs` the
text after it. -/
def token? (s : Scan) (c : Char) (cs : List Char) : Option Scan :=
  let fuel := cs.length + 2
  let next := s.cursor.skip 1
  if s.column = 0 ∧ c = '%' then do
    let s ← s.endBlocks?
    let (token, cursor) ← directive? next
    some (s.withToken token cursor)
  else if s.cursor.atDocumentMark then
    s.endBlocks?.map (·.take 3 (if c = '-' then .documentStart else .documentEnd))
  else if c = '[' then s.openFlow? .flowSequenceStart
  else if c = '\x7b' then s.openFlow? .flowMappingStart
  else if c = ']' then s.closeFlow? .flowSequenceEnd
  else if c = '\x7d' then s.closeFlow? .flowMappingEnd
  else if c = ',' then s.dropKey?.map fun s => (s.allowKey true).take 1 .flowEntry
  else if c = '-' ∧ atBlank cs then do
    let s ← s.blockSign? .blockSequenceStart
    let s ← s.dropKey?
    some ((s.allowKey true).take 1 .blockEntry)
  else if c = '?' ∧ (s.inFlow ∨ atBlank cs) then do
    let s ← s.blockSign? .blockMappingStart
    let s ← s.dropKey?
    some ((s.allowKey (!s.inFlow)).take 1 .key)
  else if c = ':' ∧ (s.inFlow ∨ atBlank cs) then s.valueSign?
  else if c = '*' ∨ c = '&' then do
    let s ← s.saveKey?
    let (name, cursor) ← anchorName? next
    some ((s.allowKey false).withToken (if c = '*' then .reference name else .anchor name) cursor)
  else if c = '!' then do
    let s ← s.saveKey?
    let (token, cursor) ← tag? s.inFlow s.cursor
    some ((s.allowKey false).withToken token cursor)
  else if c = '|' ∧ !s.inFlow then do
    let s ← s.dropKey?
    s.scalar? .literal true (block? false s.indent next)
  else if c = '>' ∧ !s.inFlow then do
    let s ← s.dropKey?
    s.scalar? .folded true (block? true s.indent next)
  else if c = '\'' ∨ c = '"' then do
    let s ← s.saveKey?
    s.scalar? .quoted false (quoted? (c == '\'') fuel [] next)
  else if startsPlain s.inFlow (c :: cs) then do
    let s ← s.saveKey?
    let (text, gap, cursor) ← plain? s.inFlow (s.indent + 1) fuel [] .none s.cursor
    s.scalar? .plain gap.broken (some (text, cursor))
  else none

/-- Reads all tokens. -/
def run? (fuel : Nat) (s : Scan) : Option (Array Token) :=
  match fuel with
  | 0 => none
  | fuel + 1 => do
      let s := s.skipToToken (s.rest.length + 1)
      let s ← s.dropStale?
      match s.rest with
      | [] =>
          let s ← s.endBlocks?
          some (s.tokens.push .streamEnd)
      | c :: cs =>
          let s ← (s.unroll s.column).token? c cs
          run? fuel s

end Scan

/-- The tokens of a text. A text with a character that YAML does not admit
has none. -/
def tokens? (text : String) : Option (List Token) :=
  let cs := text.toList
  if cs.all isAllowed then (Scan.run? (cs.length + 2) (Scan.start cs)).map Array.toList
  else none

end DataVault.Yaml
