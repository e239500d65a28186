/-
DataVault.Text.Range — sets of characters given by ranges of code points.

A `RangeTable` lists closed ranges; `RangeTable.contains` decides
membership. The tables of Unicode properties in the sibling modules are
values of this type.
-/
namespace DataVault.Text

/-- Closed ranges of code points, in ascending order. -/
abbrev RangeTable := List (Nat × Nat)

/-- Some range holds the code point. The ranges ascend, so the search stops
at the first one that ends at or after it. -/
def RangeTable.contains : RangeTable → Nat → Bool
  | [], _ => false
  | (first, last) :: rest, n => if n ≤ last then first ≤ n else RangeTable.contains rest n

/-- Every range is an interval and lies before the next one. -/
def RangeTable.Ascending : RangeTable → Prop
  | [] => True
  | [(first, last)] => first ≤ last
  | (first, last) :: (first', last') :: rest =>
      first ≤ last ∧ last < first' ∧ RangeTable.Ascending ((first', last') :: rest)

instance decidableAscending : (t : RangeTable) → Decidable t.Ascending
  | [] => isTrue trivial
  | [(first, last)] => inferInstanceAs (Decidable (first ≤ last))
  | (first, last) :: (first', last') :: rest =>
      have := decidableAscending ((first', last') :: rest)
      inferInstanceAs (Decidable (first ≤ last ∧ last < first' ∧ _))

end DataVault.Text
