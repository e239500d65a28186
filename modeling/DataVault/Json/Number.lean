/-
DataVault.Json.Number — which numbers have a value.

A number is read as a double in a fixed way. Its digits are taken into a
number of 64 bits as long as they fit, and the rest only counts. Then that
number and the power of ten that is left over are each rounded to doubles,
and so is their product. A number whose product is beyond the doubles has
no value, though the number that is written may be just inside.
-/
import DataVault.Text.Numeral

namespace DataVault.Json

open DataVault.Text

/-- The digits that fit into a number of 64 bits, added to one, and those
that are left. -/
def takeDigits (n : Nat) : List Char → Nat × List Char
  | [] => (n, [])
  | c :: cs =>
      let next := n * 10 + (c.toNat - 48)
      if next < Nat.pow 2 64 then takeDigits next cs else (n, c :: cs)

/-- The double nearest to a number, where doubles have no upper end. Of two
that are equally near it is the even one. -/
def nearestDouble (n : Nat) : Nat :=
  let unit := Nat.pow 2 (n.log2 - 52)
  let whole := n / unit
  let rest := n % unit
  let up := unit < 2 * rest || (2 * rest = unit && whole % 2 = 1)
  (if up then whole + 1 else whole) * unit

/-- The product of a number and a power of ten, each of them rounded, is
beyond the doubles. -/
def isBeyond (n : Nat) (exponent : Int) : Bool :=
  if n = 0 || exponent < 0 then false
  else if exponent > 308 then true
  else doubleLimit ≤ nearestDouble n * nearestDouble (Nat.pow 10 exponent.toNat)

/-- The number with these digits before and after the point has no value. -/
def hasNoValue (whole fraction : List Char) (exponent : Int) : Bool :=
  let (n, wholeLeft) := takeDigits 0 whole
  let (n, fractionLeft) := takeDigits n fraction
  isBeyond n (exponent + wholeLeft.length - (fraction.length - fractionLeft.length : Nat))

end DataVault.Json
