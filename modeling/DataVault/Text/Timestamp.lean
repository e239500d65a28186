/-
DataVault.Text.Timestamp — the written forms of a point in time.

A point in time is a date, a time of day with seconds, and an offset from
universal time, as in `2024-01-31T08:30:00.5+01:00`. Blanks may stand in
front of a number or a sign, a year may have a sign and then any number of
digits, and the offset may be `Z` or `UTC`. `isTimestamp` decides whether a
text is one and names a day and a time that exist, in universal time too.
`timestampText` writes the seconds since the start of 1970 in universal
time.
-/
import DataVault.Text.Blank
import DataVault.Text.Control
import DataVault.Text.Numeral

namespace DataVault.Text

/-! ## 1. Numbers -/

/-- One to `most` digits in front, and the text after them. -/
def digitsUpTo? (most : Nat) (cs : List Char) : Option (Nat × List Char) :=
  let digits := (cs.takeWhile Char.isDigit).take most
  if digits.isEmpty then none else some (decimalValue digits, cs.drop digits.length)

/-- A number after blanks, between two bounds. -/
def boundedNumber? (low high : Nat) (cs : List Char) : Option (Nat × List Char) :=
  match digitsUpTo? 2 (trimLeft cs) with
  | some (n, rest) => if low ≤ n ∧ n ≤ high then some (n, rest) else none
  | none => none

/-- The year, after blanks: four digits at most, or a sign and any number of
them. -/
def year? (cs : List Char) : Option (Int × List Char) :=
  match trimLeft cs with
  | '-' :: rest => (digitsUpTo? rest.length rest).map fun (n, rest) => (-(n : Int), rest)
  | '+' :: rest => (digitsUpTo? rest.length rest).map fun (n, rest) => ((n : Int), rest)
  | rest => (digitsUpTo? 4 rest).map fun (n, rest) => ((n : Int), rest)

/-- A sign after blanks. -/
def sign? (sign : Char) (cs : List Char) : Option (List Char) :=
  match trimLeft cs with
  | c :: rest => if c = sign then some rest else none
  | [] => none

/-! ## 2. Days -/

/-- A day of the calendar. -/
structure Day where
  year : Int
  month : Nat
  day : Nat
  deriving DecidableEq

/-- The first and the last day that are counted. -/
def Day.first : Day := ⟨-262143, 1, 1⟩
def Day.last : Day := ⟨262142, 12, 31⟩

def isLeapYear (year : Int) : Bool :=
  year % 4 == 0 && (year % 100 != 0 || year % 400 == 0)

def daysOfMonth (year : Int) (month : Nat) : Nat :=
  if month = 2 then if isLeapYear year then 29 else 28
  else if month ∈ [4, 6, 9, 11] then 30
  else 31

/-- A day that exists, and the text after it. -/
def day? (cs : List Char) : Option (Day × List Char) := do
  let (year, cs) ← year? cs
  let (month, cs) ← boundedNumber? 1 12 (← sign? '-' cs)
  let (day, cs) ← boundedNumber? 1 (daysOfMonth year month) (← sign? '-' cs)
  if Day.first.year ≤ year ∧ year ≤ Day.last.year then some (⟨year, month, day⟩, cs) else none

/-! ## 3. Times -/

/-- The text after the fraction of a second, if there is one. -/
def fractionOfSecond? : List Char → Option (List Char)
  | '.' :: cs => (digitsUpTo? cs.length cs).map Prod.snd
  | cs => some cs

/-- The minutes since midnight of a time of day, and the text after it. -/
def timeOfDay? (cs : List Char) : Option (Nat × List Char) := do
  let (hours, cs) ← boundedNumber? 0 23 cs
  let (minutes, cs) ← boundedNumber? 0 59 (← sign? ':' cs)
  let (_, cs) ← boundedNumber? 0 60 (← sign? ':' cs)
  (fractionOfSecond? cs).map (hours * 60 + minutes, ·)

/-- Two digits. -/
def twoDigits? : List Char → Option (Nat × List Char)
  | a :: b :: rest =>
      if a.isDigit ∧ b.isDigit then some (decimalValue [a, b], rest) else none
  | _ => none

/-- The hours and minutes of an offset, in minutes, and the text after
them. -/
def offsetDigits? (cs : List Char) : Option (Nat × List Char) := do
  let (hours, cs) ← twoDigits? cs
  let (minutes, cs) ← twoDigits? (cs.dropWhile fun c => c == ':' || isBlank c)
  if hours < 24 ∧ minutes < 60 then some (hours * 60 + minutes, cs) else none

/-- An offset from universal time in minutes, and the text after it. -/
def offsetFrom? (cs : List Char) : Option (Int × List Char) :=
  match cs with
  | 'Z' :: rest | 'z' :: rest => some (0, rest)
  | '+' :: rest => (offsetDigits? rest).map fun (n, rest) => ((n : Int), rest)
  | '-' :: rest | '\u2212' :: rest => (offsetDigits? rest).map fun (n, rest) => (-(n : Int), rest)
  | a :: b :: c :: rest =>
      if [a.toLower, b.toLower, c.toLower] = ['u', 't', 'c'] then some (0, rest) else none
  | _ => none

/-- The text after the mark between a date and a time. -/
def timeMark? : List Char → Option (List Char)
  | 'T' :: rest | 't' :: rest | ' ' :: rest => some rest
  | _ => none

/-- A minute of a day, counted with an offset, is on a day that is counted in
universal time. -/
def isCounted (day : Day) (minute : Nat) (offset : Int) : Bool :=
  let universal : Int := minute - offset
  !(day = Day.first && universal < 0) && !(day = Day.last && 24 * 60 ≤ universal)

/-- The text is a point in time. -/
def isTimestamp (s : String) : Bool :=
  let read? : Option Bool := do
    let (day, cs) ← day? s.toList
    let (minute, cs) ← timeOfDay? (← timeMark? cs)
    let (offset, cs) ← offsetFrom? (trimLeft cs)
    some ((trimLeft cs).isEmpty && isCounted day minute offset)
  read?.getD false

/-! ## 4. Writing -/

def daysOfYear (year : Nat) : Nat := if isLeapYear year then 366 else 365

/-- The year that a day is in, counted from the start of `year`, and the day
within that year. -/
def yearOfDay (fuel year day : Nat) : Nat × Nat :=
  match fuel with
  | 0 => (year, day)
  | fuel + 1 =>
      if day < daysOfYear year then (year, day)
      else yearOfDay fuel (year + 1) (day - daysOfYear year)

/-- The month that a day of a year is in, counted from the start of `month`,
and the day within that month. -/
def monthOfDay (fuel year month day : Nat) : Nat × Nat :=
  match fuel with
  | 0 => (month, day)
  | fuel + 1 =>
      if day < daysOfMonth year month then (month, day)
      else monthOfDay fuel year (month + 1) (day - daysOfMonth year month)

/-- A number with zeros in front, up to the width. -/
def zeroPadded (width n : Nat) : String :=
  let digits := toString n
  String.ofList (List.replicate (width - digits.length) '0') ++ digits

/-- A point in time, given by the seconds since the start of 1970. -/
def timestampText (seconds : Nat) : String :=
  let day := seconds / 86400
  let (year, rest) := yearOfDay (day / 365 + 1) 1970 day
  let (month, rest) := monthOfDay 12 year 1 rest
  zeroPadded 4 year ++ "-" ++ zeroPadded 2 month ++ "-" ++ zeroPadded 2 (rest + 1) ++ "T" ++
    zeroPadded 2 (seconds / 3600 % 24) ++ ":" ++ zeroPadded 2 (seconds / 60 % 60) ++ ":" ++
    zeroPadded 2 (seconds % 60) ++ "Z"

end DataVault.Text
