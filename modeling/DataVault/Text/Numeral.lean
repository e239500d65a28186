/-
DataVault.Text.Numeral — decimal numerals and the range of double
precision.

`exceedsDouble` decides, without rounding, whether `mantissa · 10 ^ exponent`
is too large for a finite double: whether it reaches the midpoint between
the greatest finite double and the next power of two. `decimalValue` reads
a run of decimal digits.
-/
namespace DataVault.Text

/-- The least value that is rounded to infinity. -/
def doubleLimit : Nat := Nat.pow 2 1024 - Nat.pow 2 970

/-- The number that decimal digits write. -/
def decimalValue (digits : List Char) : Nat :=
  digits.foldl (fun n c => n * 10 + (c.toNat - 48)) 0

/-- The value is beyond the finite doubles. The exact comparison is made
only near the limit; far from it the count of digits decides. -/
def exceedsDouble (mantissa : Nat) (exponent : Int) : Bool :=
  let magnitude := (Nat.toDigits 10 mantissa).length + exponent
  if mantissa = 0 ∨ magnitude < 308 then false
  else if magnitude > 310 then true
  else if exponent ≥ 0 then doubleLimit ≤ mantissa * Nat.pow 10 exponent.toNat
  else doubleLimit * Nat.pow 10 (-exponent).toNat ≤ mantissa

end DataVault.Text
