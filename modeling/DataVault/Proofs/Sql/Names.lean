/-
DataVault.Proofs.Sql.Names — when two names are the same.

Names are compared without case, which is an equivalence. A name that is
made by appending a suffix differs from one that ends in another way
(`sameName_eq_false_of_suffix`), and differs from a name with the same
suffix as what stands before it does (`sameName_append_iff`).
-/
import DataVault.Sql.Ident
import DataVault.Text.Blank

namespace DataVault.Sql

open DataVault.Text

/-! ## 1. Sameness -/

theorem sameName_iff {a b : Ident} : a.sameName b = true ↔ lower a.text = lower b.text :=
  eqIgnoreCase_iff

theorem sameName_refl (a : Ident) : a.sameName a = true := eqIgnoreCase_refl a.text

theorem sameName_symm {a b : Ident} (h : a.sameName b = true) : b.sameName a = true :=
  eqIgnoreCase_symm h

theorem sameName_trans {a b c : Ident} (hab : a.sameName b = true) (hbc : b.sameName c = true) :
    a.sameName c = true :=
  eqIgnoreCase_trans hab hbc

theorem sameName_eq_false_symm {a b : Ident} (h : a.sameName b = false) :
    b.sameName a = false := by
  rw [Bool.eq_false_iff] at h ⊢
  exact fun hba => h (eqIgnoreCase_symm hba)

/-! ## 2. Characters -/

theorem isPart_of_isStart {c : Char} (h : Ident.isStart c = true) : Ident.isPart c = true := by
  unfold Ident.isStart at h
  unfold Ident.isPart Char.isAlphanum
  rcases Bool.or_eq_true_iff.mp h with halpha | hunderscore
  · simp [halpha]
  · simp [hunderscore]

theorem isPart_of_spelledBy {cs : List Char} (h : Ident.spelledBy cs = true) :
    ∀ c ∈ cs, Ident.isPart c = true := by
  cases cs with
  | nil => nofun
  | cons first rest =>
    rw [Ident.spelledBy, Bool.and_eq_true] at h
    exact List.forall_mem_cons.mpr ⟨isPart_of_isStart h.1, List.all_eq_true.mp h.2⟩

theorem isPart_of_mem {i : Ident} {c : Char} (hc : c ∈ i.text.toList) :
    Ident.isPart c = true :=
  isPart_of_spelledBy i.spelled c hc

theorem toNat_lt_of_isPart {c : Char} (h : Ident.isPart c = true) : c.toNat < 0x80 := by
  have hbound : ∀ d : Char, c.val ≤ d.val → d.toNat < 0x80 → c.toNat < 0x80 :=
    fun d hle hd => Nat.lt_of_le_of_lt hle hd
  rcases Bool.or_eq_true_iff.mp h with hword | hunderscore
  · rcases Bool.or_eq_true_iff.mp hword with halpha | hdigit
    · rcases Bool.or_eq_true_iff.mp halpha with hupper | hlower
      · exact hbound 'Z' (of_decide_eq_true hupper).2 (by decide)
      · exact hbound 'z' (of_decide_eq_true (Bool.and_eq_true_iff.mp hlower).2) (by decide)
    · exact hbound '9' (of_decide_eq_true (Bool.and_eq_true_iff.mp hdigit).2) (by decide)
  · rw [beq_iff_eq.mp hunderscore]
    decide

/-- A test that the few characters of names do not pass. -/
theorem eq_false_of_isPart {p : Char → Bool}
    (hall : ∀ n < 0x80, Ident.isPart (Char.ofNat n) = true → p (Char.ofNat n) = false) {c : Char}
    (h : Ident.isPart c = true) : p c = false := by
  have hchar := hall c.toNat (toNat_lt_of_isPart h)
  rw [Char.ofNat_toNat] at hchar
  exact hchar h

theorem isBlank_of_isPart {c : Char} (h : Ident.isPart c = true) : isBlank c = false :=
  eq_false_of_isPart (by decide +kernel) h

theorem ident_ne_empty (i : Ident) : i.text ≠ "" := by
  intro h
  have hspelled := i.spelled
  rw [h] at hspelled
  exact absurd hspelled (by decide)

theorem isBlank_ident (i : Ident) : ∀ c ∈ i.text.toList, isBlank c = false :=
  fun _ hc => isBlank_of_isPart (isPart_of_mem hc)

/-- Signs do not occur in a name. -/
theorem notMem_of_isPart_eq_false {i : Ident} {c : Char} (hc : Ident.isPart c = false) :
    c ∉ i.text.toList := by
  intro hmem
  rw [isPart_of_mem hmem] at hc
  cases hc

/-! ## 3. Prefixes and suffixes -/

/-- Texts with one beginning are the same if they go on in the same way. -/
theorem eqIgnoreCase_append_left (start a b : String) :
    eqIgnoreCase (start ++ a) (start ++ b) = eqIgnoreCase a b := by
  rw [Bool.eq_iff_iff, eqIgnoreCase_iff, eqIgnoreCase_iff, lower_append start a,
    lower_append start b]
  constructor
  · intro h
    have hlists := congrArg String.toList h
    rw [String.toList_append, String.toList_append] at hlists
    exact String.toList_inj.mp (List.append_cancel_left hlists)
  · intro h
    rw [h]

/-- A text is read as a name exactly when it is the text of the name. -/
theorem parse_eq_ok_iff {text : String} {name : Ident} :
    Ident.parse text = .ok name ↔ name.text = text := by
  constructor
  · intro h
    unfold Ident.parse at h
    split at h
    · cases h
    · split at h
      · split at h
        · cases h
          rfl
        · cases h
      · cases h
  · rintro rfl
    simp [Ident.parse, ident_ne_empty, name.short, name.spelled]

theorem parse_eq_ok {text : String} {name : Ident} (h : Ident.parse text = .ok name) :
    name.text = text :=
  parse_eq_ok_iff.mp h

/-- Names that end differently are different. -/
theorem sameName_eq_false_of_suffix {a b : Ident} {x y u v : String} (ha : a.text = x ++ u)
    (hb : b.text = y ++ v) (hlength : u.length = v.length) (hne : lower u ≠ lower v) :
    a.sameName b = false := by
  rw [Bool.eq_false_iff, Ne, sameName_iff, ha, hb, lower_append, lower_append]
  intro hsame
  have hlists := congrArg String.toList hsame
  rw [String.toList_append, String.toList_append] at hlists
  refine hne (String.toList_inj.mp (List.append_inj_right' hlists ?_))
  rw [toList_lower, toList_lower, List.length_map, List.length_map, String.length_toList,
    String.length_toList, hlength]

/-- Names with one suffix are the same exactly when what stands before it is
the same. -/
theorem sameName_append_iff {a b f g : Ident} {u : String} (ha : a.text = f.text ++ u)
    (hb : b.text = g.text ++ u) : a.sameName b = true ↔ f.sameName g = true := by
  rw [sameName_iff, sameName_iff, ha, hb, lower_append, lower_append]
  constructor
  · intro hsame
    have hlists := congrArg String.toList hsame
    rw [String.toList_append, String.toList_append] at hlists
    exact String.toList_inj.mp (List.append_cancel_right hlists)
  · intro hsame
    rw [hsame]

/-- Different names stay different with one suffix. -/
theorem sameName_eq_false_of_append {a b f g : Ident} {u : String} (ha : a.text = f.text ++ u)
    (hb : b.text = g.text ++ u) (hne : f.sameName g = false) : a.sameName b = false := by
  rw [Bool.eq_false_iff, Ne, sameName_append_iff ha hb]
  exact Bool.eq_false_iff.mp hne

/-! ## 4. Joined names -/

theorem textsJoined_singleton (glue : String) (name : Ident) :
    Ident.textsJoined glue [name] = name.text :=
  String.intercalate_singleton

theorem textsJoined_cons_cons (glue : String) (name next : Ident) (names : List Ident) :
    Ident.textsJoined glue (name :: next :: names) =
      name.text ++ glue ++ Ident.textsJoined glue (next :: names) := by
  unfold Ident.textsJoined
  rw [List.map_cons, List.map_cons, String.intercalate_cons_cons]

end DataVault.Sql
