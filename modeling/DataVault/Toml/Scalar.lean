/-
DataVault.Toml.Scalar — the scalars of TOML 1.0.

Four kinds of strings, numbers, truth values, dates and times. A reader
takes the text in front of it and returns what it read with the rest. Only
strings and truth values are ever asked for, so a number is checked and
forgotten. A date or time is read as a table with one private member, which
no record knows.
-/
import DataVault.Document.Node
import DataVault.Text.Hex
import DataVault.Text.Numeral

namespace DataVault.Toml

open DataVault.Document DataVault.Text

/-! ## 1. Characters -/

def isSpace (c : Char) : Bool := c == ' ' || c == '\t'

/-- A character that may stand in a comment or a literal string. -/
def isPlain (c : Char) : Bool := c == '\t' || (0x20 ≤ c.toNat && c.toNat != 0x7F)

def skipSpace (cs : List Char) : List Char := cs.dropWhile isSpace

/-- The text after a line break. -/
def lineBreak? : List Char → Option (List Char)
  | '\n' :: rest => some rest
  | '\r' :: '\n' :: rest => some rest
  | _ => none

/-! ## 2. Strings -/

/-- The character with a code point, unless it is a surrogate or too large. -/
def scalarValue? (n : Nat) : Option Char := if n.isValidChar then some (Char.ofNat n) else none

/-- The character of a short escape. -/
def shortEscape? : Char → Option Char
  | 'b' => some '\x08'
  | 't' => some '\t'
  | 'n' => some '\n'
  | 'f' => some '\x0c'
  | 'r' => some '\r'
  | '"' => some '"'
  | '\\' => some '\\'
  | _ => none

/-- An escape after its backslash, and the text after it. -/
def escape? : List Char → Option (Char × List Char)
  | 'u' :: cs => do
      let c ← if cs.length < 4 then none else (hexNumber? (cs.take 4)).bind scalarValue?
      some (c, cs.drop 4)
  | 'U' :: cs => do
      let c ← if cs.length < 8 then none else (hexNumber? (cs.take 8)).bind scalarValue?
      some (c, cs.drop 8)
  | e :: cs => (shortEscape? e).map (·, cs)
  | [] => none

/-- A string up to its closing quote, on one line. -/
def basicString? (fuel : Nat) (cs : List Char) : Option (List Char × List Char) :=
  match fuel, cs with
  | _, '"' :: rest => some ([], rest)
  | fuel + 1, '\\' :: rest => do
      let (c, rest) ← escape? rest
      let (text, rest) ← basicString? fuel rest
      some (c :: text, rest)
  | fuel + 1, c :: rest =>
      if isPlain c then (basicString? fuel rest).map fun (text, rest) => (c :: text, rest)
      else none
  | _, _ => none

/-- A string without escapes up to its closing apostrophe, on one line. -/
def literalString? : List Char → Option (List Char × List Char)
  | [] => none
  | '\'' :: rest => some ([], rest)
  | c :: rest =>
      if isPlain c then (literalString? rest).map fun (text, rest) => (c :: text, rest) else none

/-- The rest after blanks and line breaks that follow a backslash at the end
of a line. -/
def skipLines : List Char → List Char
  | '\r' :: '\n' :: cs => skipLines cs
  | c :: cs => if isSpace c || c == '\n' then skipLines cs else c :: cs
  | [] => []

/-- Blanks up to the end of the line. -/
def blankToLineEnd? (cs : List Char) : Option (List Char) := lineBreak? (skipSpace cs)

/-- A string over several lines, up to its closing quotes. Up to two quotes
may stand in front of the closing ones. `escapes` says whether a backslash
escapes. -/
def longString? (quote : Char) (escapes : Bool) (fuel : Nat) (cs : List Char) :
    Option (List Char × List Char) :=
  match fuel with
  | 0 => none
  | fuel + 1 =>
      let after (piece rest : List Char) : Option (List Char × List Char) :=
        (longString? quote escapes fuel rest).map fun (text, rest) => (piece ++ text, rest)
      match cs with
      | [] => none
      | c :: rest =>
          if c = quote then
            let run := cs.takeWhile (· == quote)
            let rest := cs.drop run.length
            if run.length < 3 then after run rest
            else if run.length ≤ 5 then some (run.drop 3, rest)
            else none
          else if c = '\\' ∧ escapes then
            match blankToLineEnd? rest with
            | some rest => after [] (skipLines rest)
            | none => (escape? rest).bind fun (c, rest) => after [c] rest
          else
            match lineBreak? cs with
            | some rest => after ['\n'] rest
            | none => if isPlain c then after [c] rest else none

/-- The text without the line break it starts with. -/
def dropLineBreak (cs : List Char) : List Char := (lineBreak? cs).getD cs

/-- A string of any kind. -/
def string? (cs : List Char) : Option (List Char × List Char) :=
  match cs with
  | '"' :: '"' :: '"' :: rest => longString? '"' true (rest.length + 1) (dropLineBreak rest)
  | '"' :: rest => basicString? (rest.length + 1) rest
  | '\'' :: '\'' :: '\'' :: rest => longString? '\'' false (rest.length + 1) (dropLineBreak rest)
  | '\'' :: rest => literalString? rest
  | _ => none

/-! ## 3. Numbers -/

/-- Digits in which single underscores may stand between two digits. The
underscores are dropped. -/
def digitsFrom? (isDigit : Char → Bool) : List Char → Option (List Char × List Char)
  | [] => some ([], [])
  | '_' :: c :: rest =>
      if isDigit c then (digitsFrom? isDigit rest).map fun (ds, rest) => (c :: ds, rest) else none
  | c :: rest =>
      if isDigit c then (digitsFrom? isDigit rest).map fun (ds, rest) => (c :: ds, rest)
      else if c = '_' then none
      else some ([], c :: rest)

/-- At least one digit. -/
def digits? (isDigit : Char → Bool) : List Char → Option (List Char × List Char)
  | c :: rest =>
      if isDigit c then (digitsFrom? isDigit rest).map fun (ds, rest) => (c :: ds, rest) else none
  | [] => none

/-- An optional sign: whether it is a minus. -/
def sign : List Char → Bool × List Char
  | '-' :: rest => (true, rest)
  | '+' :: rest => (false, rest)
  | cs => (false, cs)

/-- A decimal integer without a leading zero, as its sign and digits. -/
def decimal? (cs : List Char) : Option (Bool × List Char × List Char) :=
  match sign cs with
  | (negative, '0' :: rest) => some (negative, ['0'], rest)
  | (negative, rest) => (digits? Char.isDigit rest).map (negative, ·)

/-- The exponent of a number. -/
def exponent? : List Char → Option (Int × List Char)
  | 'e' :: cs | 'E' :: cs => do
      let (negative, cs) := sign cs
      let (ds, rest) ← digits? Char.isDigit cs
      let n : Int := decimalValue ds
      some (if negative then -n else n, rest)
  | _ => none

/-- The text after a number with a fraction or an exponent. A positive one
beyond the doubles is refused. -/
def float? (cs : List Char) : Option (List Char) := do
  let (negative, whole, rest) ← decimal? cs
  let (fraction, rest) ←
    match rest with
    | '.' :: rest => digits? Char.isDigit rest
    | 'e' :: _ | 'E' :: _ => some ([], rest)
    | _ => none
  let (exponent, rest) ←
    match rest with
    | 'e' :: _ | 'E' :: _ => exponent? rest
    | _ => some (0, rest)
  let tooLarge :=
    exceedsDouble (decimalValue (whole ++ fraction)) (exponent - fraction.length)
  if tooLarge && !negative then none else some rest

/-- The text after an infinity or a not-a-number. -/
def specialFloat? (cs : List Char) : Option (List Char) :=
  match (sign cs).2 with
  | 'i' :: 'n' :: 'f' :: rest | 'n' :: 'a' :: 'n' :: rest => some rest
  | _ => none

/-- An integer in another base, at most `2 ^ 63 - 1`. -/
def basedInteger? (base : Nat) (cs : List Char) : Option (List Char) := do
  let isDigit (c : Char) := ((hexValue? c).map (decide <| · < base)).getD false
  let (ds, rest) ← digits? isDigit cs
  let n := ds.foldl (fun n c => n * base + (hexValue? c).getD 0) 0
  if n < Nat.pow 2 63 then some rest else none

/-- The text after an integer of 64 bits. -/
def integer? : List Char → Option (List Char)
  | '0' :: 'x' :: rest => basedInteger? 16 rest
  | '0' :: 'o' :: rest => basedInteger? 8 rest
  | '0' :: 'b' :: rest => basedInteger? 2 rest
  | cs => do
      let (negative, ds, rest) ← decimal? cs
      let limit := if negative then Nat.pow 2 63 else Nat.pow 2 63 - 1
      if decimalValue ds ≤ limit then some rest else none

/-! ## 4. Dates and times -/

/-- A number of exactly so many digits, between two bounds. -/
def fixed? (count low high : Nat) (cs : List Char) : Option (Nat × List Char) :=
  let ds := cs.take count
  let n := decimalValue ds
  if ds.length = count ∧ ds.all Char.isDigit ∧ low ≤ n ∧ n ≤ high then some (n, cs.drop count)
  else none

/-- The text after a character. -/
def expect? (c : Char) : List Char → Option (List Char)
  | d :: rest => if d = c then some rest else none
  | [] => none

/-- The number of days of a month. -/
def daysInMonth (year month : Nat) : Nat :=
  if month = 2 then if year % 4 = 0 ∧ (year % 100 ≠ 0 ∨ year % 400 = 0) then 29 else 28
  else if month ∈ [4, 6, 9, 11] then 30
  else 31

/-- The text after a date. -/
def date? (cs : List Char) : Option (List Char) := do
  let (year, cs) ← fixed? 4 0 9999 cs
  let (month, cs) ← fixed? 2 1 12 (← expect? '-' cs)
  let (_, cs) ← fixed? 2 1 (daysInMonth year month) (← expect? '-' cs)
  some cs

/-- The text after a time of day. -/
def time? (cs : List Char) : Option (List Char) := do
  let (_, cs) ← fixed? 2 0 23 cs
  let (_, cs) ← fixed? 2 0 59 (← expect? ':' cs)
  let (_, cs) ← fixed? 2 0 60 (← expect? ':' cs)
  match cs with
  | '.' :: d :: rest => if d.isDigit then some (rest.dropWhile Char.isDigit) else some cs
  | _ => some cs

/-- The text after an offset from universal time, if there is one. -/
def offset? : List Char → Option (List Char)
  | 'Z' :: rest | 'z' :: rest => some rest
  | cs@('+' :: rest) | cs@('-' :: rest) =>
      match fixed? 2 0 23 rest with
      | some (_, ':' :: rest) => (fixed? 2 0 59 rest).map Prod.snd
      | _ => some cs
  | cs => some cs

/-- The text after a date with or without a time, or after a time. -/
def dateTime? (cs : List Char) : Option (List Char) :=
  match date? cs with
  | none => time? cs
  | some rest =>
      match rest with
      | 'T' :: t | 't' :: t | ' ' :: t =>
          match time? t with
          | some after => offset? after
          | none => some rest
      | _ => some rest

/-- What a date or a time is read as. -/
def dateTimeNode : Node := .named [("$__toml_private_datetime", .scalar (.ofText ""))]

/-! ## 5. Any scalar that is no string -/

def bare? (cs : List Char) : Option (Node × List Char) :=
  match cs with
  | 't' :: 'r' :: 'u' :: 'e' :: rest => some (.scalar (.ofBool true), rest)
  | 'f' :: 'a' :: 'l' :: 's' :: 'e' :: rest => some (.scalar (.ofBool false), rest)
  | _ =>
      match dateTime? cs with
      | some rest => some (dateTimeNode, rest)
      | none =>
          (float? cs <|> specialFloat? cs <|> integer? cs).map fun rest => (.scalar .other, rest)

end DataVault.Toml
