/-
DataVault.Yaml.Resolve — what a YAML scalar stands for.

Where the type is known, every scalar is a text, a plain one may be a truth
value, and so on; `scalarOf` gives the answers. Where a scalar has to tell
its type by itself, `freeKey?` does: its tag decides, and without one a
plain scalar is null, a truth value or a number if it looks like one, and a
text otherwise. Numbers of more than 64 bits are refused there.
-/
import DataVault.Document.Node
import DataVault.Text.Numeral
import DataVault.Yaml.Scalar
import DataVault.Yaml.Tag

namespace DataVault.Yaml

open DataVault.Document DataVault.Text

/-! ## 1. Words -/

def isNullWord (s : String) : Bool := ["null", "Null", "NULL", "~"].contains s

def boolOf? (s : String) : Option Bool :=
  if ["true", "True", "TRUE"].contains s then some true
  else if ["false", "False", "FALSE"].contains s then some false
  else none

/-! ## 2. Numbers -/

/-- The text after a sign, if there is one. -/
def unsigned : List Char → List Char
  | '+' :: cs | '-' :: cs => cs
  | cs => cs

/-- The number that digits of a base write, at least one. -/
def numberIn? (base : Nat) (cs : List Char) : Option Nat :=
  if cs.isEmpty then none
  else
    (cs.mapM fun c => (Text.hexValue? c).filter (· < base)).map fun ds =>
      ds.foldl (fun n d => n * base + d) 0

/-- Digits that start with a superfluous zero are a text. -/
def isZeroLed (cs : List Char) : Bool :=
  match unsigned cs with
  | '0' :: c :: rest => (c :: rest).all Char.isDigit
  | _ => false

/-- The number that an integer without a sign writes. -/
def magnitude? : List Char → Option Nat
  | '0' :: 'x' :: cs => numberIn? 16 cs
  | '0' :: 'o' :: cs => numberIn? 8 cs
  | '0' :: 'b' :: cs => numberIn? 2 cs
  | cs => if isZeroLed cs then none else numberIn? 10 cs

/-- The integer that a text writes, if it has at most 128 bits. The sign of
one with a minus is part of it, even if it is zero. -/
def integer? (cs : List Char) : Option (Bool × Nat) :=
  match cs with
  | '-' :: cs => ((magnitude? cs).filter (· ≤ Nat.pow 2 127)).map (true, ·)
  | _ =>
      let cs := if cs.head? = some '+' then cs.drop 1 else cs
      ((magnitude? cs).filter (· < Nat.pow 2 128)).map (false, ·)

/-- A decimal number without a sign, which is a text if it is beyond the
doubles. -/
def isDecimal (cs : List Char) : Bool :=
  let (whole, rest) := cs.span Char.isDigit
  let (fraction, rest) :=
    match rest with
    | '.' :: rest => rest.span Char.isDigit
    | _ => ([], rest)
  let exponent? : Option Int :=
    match rest with
    | [] => some 0
    | e :: rest =>
        let digits := unsigned rest
        if (e = 'e' ∨ e = 'E') ∧ !digits.isEmpty ∧ digits.all Char.isDigit then
          let n : Int := decimalValue digits
          some (if rest.head? == some '-' then -n else n)
        else none
  match exponent? with
  | none => false
  | some exponent =>
      !(whole ++ fraction).isEmpty &&
        !exceedsDouble (decimalValue (whole ++ fraction)) (exponent - fraction.length)

/-- The texts of infinities and of what is no number. -/
def specialNumbers : List String :=
  [".inf", ".Inf", ".INF", "+.inf", "+.Inf", "+.INF", "-.inf", "-.Inf", "-.INF", ".nan", ".NaN",
   ".NAN"]

/-- The text writes a number of double precision. -/
def isFloat (s : String) : Bool := specialNumbers.contains s || isDecimal (unsigned s.toList)

/-! ## 3. Scalars that tell their type -/

/-- What an integer is where it tells its type: one of more than 64 bits is
refused. -/
def integerKey? : Bool × Nat → Option Key
  | (false, n) => if n < Nat.pow 2 64 then some (.position n) else none
  | (true, n) => if n ≤ Nat.pow 2 63 then some .other else none

/-- What a plain scalar without a tag is. -/
def plainKey? (s : String) : Option Key :=
  if s.isEmpty || isNullWord s || (boolOf? s).isSome then some .other
  else
    match integer? s.toList with
    | some n => integerKey? n
    | none => if !isZeroLed s.toList && isFloat s then some .other else some (.text s)

/-- What a scalar is where it tells its type. An application's label does
not tell, and a tag of YAML has to fit. -/
def freeKey? (tag : Option Tag) (style : Style) (s : String) : Option Key :=
  let untagged := if style = .plain then plainKey? s else some (.text s)
  match tag with
  | none | some .garbled => untagged
  | some .foreign => some (.text s)
  | some (.label _) => none
  | some .bool => (boolOf? s).map fun _ => .other
  | some .int => (integer? s.toList).bind integerKey?
  | some .float => if isFloat s then some .other else none
  | some .null => if isNullWord s then some .other else none

/-! ## 4. Scalars whose type is known -/

/-- The name that a scalar chooses: its text, or its label where there is no
text. -/
def choice? (tag : Option Tag) (style : Style) (s : String) : Option String :=
  match tag.bind Tag.label? with
  | some name => if style = .plain ∧ (s.isEmpty ∨ isNullWord s) then some name else none
  | none => some s

/-- Whether there is no value. A scalar with the tag of nulls has to be
one. -/
def isAbsent? (tag : Option Tag) (style : Style) (s : String) : Option Bool :=
  if style ≠ .plain then some false
  else
    match tag with
    | none => some (s.isEmpty || isNullWord s)
    | some .null => if isNullWord s then some true else none
    | some _ => some false

/-- The answers of a scalar. -/
def scalarOf (tag : Option Tag) (style : Style) (s : String) : Scalar :=
  { text := some s
    free :=
      match freeKey? tag style s with
      | some (.text s) => some s
      | _ => none
    bool :=
      if style = .plain ∨ (style = .literal ∧ tag = some .bool) then boolOf? s else none
    choice := choice? tag style s
    isNull := isAbsent? tag style s
    isEmpty := style = .plain && s.isEmpty }

end DataVault.Yaml
