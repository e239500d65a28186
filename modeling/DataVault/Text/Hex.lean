/-
DataVault.Text.Hex — numbers written with the sixteen lower-case digits.

`hexDigits` writes a number with the fewest digits, `hexPadded` with at
least a given count, and `hexByte` a byte with exactly two. `hexValue?`
reads one digit of either case. A byte that is padded keeps two digits
(`hexPadded_byte`).
-/
namespace DataVault.Text

/-! ## 1. Writing -/

/-- The digit of a value below sixteen. -/
def hexDigit (n : Nat) : Char :=
  if n < 10 then Char.ofNat (48 + n) else Char.ofNat (87 + n)

/-- The digits of a number, without leading zeros; zero is one digit. -/
def hexDigits (n : Nat) : List Char :=
  if _h : n < 16 then [hexDigit n] else hexDigits (n / 16) ++ [hexDigit (n % 16)]
termination_by n
decreasing_by omega

/-- The digits of a number, filled with zeros on the left up to `width`. -/
def hexPadded (width n : Nat) : List Char :=
  let digits := hexDigits n
  List.replicate (width - digits.length) '0' ++ digits

/-- A byte as two digits. -/
def hexByte (b : UInt8) : List Char := [hexDigit (b.toNat / 16), hexDigit (b.toNat % 16)]

/-! ## 2. Reading -/

/-- The value of a digit of either case. -/
def hexValue? (c : Char) : Option Nat :=
  if '0' ≤ c ∧ c ≤ '9' then some (c.toNat - 48)
  else if 'a' ≤ c ∧ c ≤ 'f' then some (c.toNat - 87)
  else if 'A' ≤ c ∧ c ≤ 'F' then some (c.toNat - 55)
  else none

/-- The number written by the digits, the most significant one first. -/
def hexNumber? (cs : List Char) : Option Nat :=
  cs.foldlM (fun n c => (hexValue? c).map (n * 16 + ·)) 0

/-! ## 3. Bytes -/

theorem hexDigits_byte {n : Nat} (h : n < 256) :
    hexDigits n = if n < 16 then [hexDigit n] else [hexDigit (n / 16), hexDigit (n % 16)] := by
  rw [hexDigits]
  split
  · rfl
  · rw [hexDigits, dif_pos (by omega)]
    rfl

/-- A byte has two digits, and zeros stand before them. -/
theorem hexPadded_byte {n : Nat} (h : n < 256) {more : Nat} :
    hexPadded (more + 2) n =
      List.replicate more '0' ++ [hexDigit (n / 16), hexDigit (n % 16)] := by
  unfold hexPadded
  rw [hexDigits_byte h]
  split
  · next hdigit =>
    rw [Nat.div_eq_of_lt hdigit, Nat.mod_eq_of_lt hdigit]
    simp [List.replicate_succ', hexDigit]
  · simp

end DataVault.Text
