/-
DataVault.Text.Control — control characters, and the comparison of names
that ignores the case of ASCII letters.
-/
namespace DataVault.Text

/-! ## 1. Control characters -/

/-- The characters of the general category Cc: the C0 codes, DELETE and the
C1 codes. -/
def isControl (c : Char) : Bool :=
  c.toNat < 0x20 || (0x7F ≤ c.toNat && c.toNat ≤ 0x9F)

/-! ## 2. Letters without case -/

/-- The text with its ASCII capitals in lower case; every other character is
kept. -/
def lower (s : String) : String := String.ofList (s.toList.map Char.toLower)

/-- Equality up to the case of ASCII letters. -/
def eqIgnoreCase (a b : String) : Bool := lower a == lower b

theorem toList_lower (s : String) : (lower s).toList = s.toList.map Char.toLower := by
  simp [lower]

theorem lower_append (a b : String) : lower (a ++ b) = lower a ++ lower b := by
  rw [← String.toList_inj, String.toList_append, toList_lower, toList_lower, toList_lower,
    String.toList_append, List.map_append]

theorem eqIgnoreCase_iff {a b : String} : eqIgnoreCase a b = true ↔ lower a = lower b := by
  simp [eqIgnoreCase]

theorem eqIgnoreCase_refl (a : String) : eqIgnoreCase a a = true := by
  simp [eqIgnoreCase]

theorem eqIgnoreCase_symm {a b : String} (h : eqIgnoreCase a b = true) :
    eqIgnoreCase b a = true := by
  rw [eqIgnoreCase_iff] at h ⊢
  exact h.symm

theorem eqIgnoreCase_trans {a b c : String} (hab : eqIgnoreCase a b = true)
    (hbc : eqIgnoreCase b c = true) : eqIgnoreCase a c = true := by
  rw [eqIgnoreCase_iff] at hab hbc ⊢
  exact hab.trans hbc

end DataVault.Text
