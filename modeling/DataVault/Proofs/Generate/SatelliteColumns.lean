/-
DataVault.Proofs.Generate.SatelliteColumns — the columns of a satellite have
different names.

`SatelliteNames.distinct_columns` is the one fact that the proofs about
satellites use: the generated names, the descriptive fields and the vault
columns are pairwise different, in any case. Generated names differ from
each other by how they end, fields from each other because the specification
declares none twice, fields from the rest because the generator refuses
reserved ones, and vault columns from each other because the settings are
validated. That no vault column has a generated name is not checked
anywhere, and is a hypothesis.
-/
import DataVault.Proofs.Entity.Naming
import DataVault.Proofs.Generate.Generated
import DataVault.Proofs.Warehouse.Rows

namespace DataVault.Generate

open DataVault.Entity DataVault.Lists DataVault.Results DataVault.Sql DataVault.Text
  DataVault.Warehouse

/-! ## 1. Generated names -/

section
variable {spec : EntitySpec} {n : SatelliteNames}

/-- The names are those of the specification. -/
theorem SatelliteNames.of_eq_ok (h : SatelliteNames.of spec = .ok n) :
    spec.hashKeyName = .ok n.hashKey ∧ spec.businessKeyNames = .ok n.businessKeys := by
  unfold SatelliteNames.of at h
  simp only [bind_eq_ok_iff, pure_eq_ok_iff] at h
  obtain ⟨hashKey, hhash, businessKeys, hkeys, rfl⟩ := h
  exact ⟨derived_eq_ok hhash, derived_eq_ok hkeys⟩

/-- The business key columns, one for each field. -/
theorem businessKeys_text (h : SatelliteNames.of spec = .ok n) :
    Suffixed "bk" spec.businessKey n.businessKeys :=
  suffixed_businessKeyNames (SatelliteNames.of_eq_ok h).2

theorem mergeKey_text : mergeKey.text = "merge_k" ++ "ey" := by decide

/-- The generated names differ from each other. -/
theorem SatelliteNames.distinct (h : SatelliteNames.of spec = .ok n) : DistinctFields n.all := by
  obtain ⟨hhash, hkeys⟩ := SatelliteNames.of_eq_ok h
  have hbusiness := suffixed_businessKeyNames hkeys
  refine List.pairwise_cons.mpr ⟨?_, List.pairwise_cons.mpr ⟨?_, ?_⟩⟩
  · intro other hother
    rcases List.mem_cons.mp hother with rfl | hkey
    · exact sameName_eq_false_of_suffix (hashKeyName_text hhash) mergeKey_text (by decide)
        (by decide)
    · exact hashKey_ne_businessKeys hhash hkeys other hkey
  · exact hbusiness.ne_of_suffix mergeKey_text (by decide) (by decide)
  · exact hbusiness.distinct (businessKey_distinct spec)

end

/-! ## 2. Checks -/

theorem among_eq_false_iff {names : List Ident} {name : Ident} :
    Ident.among names name = false ↔ ∀ other ∈ names, other.sameName name = false := by
  unfold Ident.among
  simp only [List.any_eq_false, Bool.not_eq_true]

/-- No declared field is reserved. -/
theorem checkReserved_eq_ok_iff {s : Settings} {spec : EntitySpec} {generated : List Ident} :
    checkReserved s spec generated = .ok () ↔
      ∀ field ∈ spec.fields, ∀ name ∈ s.columns.all ++ generated, name.sameName field = false := by
  unfold checkReserved
  constructor
  · intro h
    split at h
    · cases h
    · next hnone =>
      intro field hfield
      have := List.find?_eq_none.mp hnone field hfield
      exact among_eq_false_iff.mp (by simpa using this)
  · intro h
    have hnone : spec.fields.find? (Ident.among (s.columns.all ++ generated)) = none := by
      rw [List.find?_eq_none]
      intro field hfield
      rw [among_eq_false_iff.mpr (h field hfield)]
      exact Bool.false_ne_true
    rw [hnone]

theorem distinct_of_repeatedLater? : ∀ {names : List Ident}, repeatedLater? names = none →
    DistinctFields names
  | [], _ => .nil
  | name :: rest, h => by
      unfold repeatedLater? at h
      split at h
      · cases h
      · next hlater =>
        rw [Bool.not_eq_true, among_eq_false_iff] at hlater
        exact List.pairwise_cons.mpr
          ⟨fun other hother => sameName_eq_false_symm (hlater other hother),
            distinct_of_repeatedLater? h⟩

/-- Accepted settings have six different vault columns. -/
theorem Settings.columns_distinct {s : Settings} (h : s.validate = .ok ()) :
    DistinctFields s.columns.all := by
  apply distinct_of_repeatedLater?
  simp only [Settings.validate, bind_eq_ok_iff] at h
  obtain ⟨⟨⟩, -, ⟨⟩, -, hcolumns⟩ := h
  unfold VaultColumns.check at hcolumns
  split at hcolumns
  · cases hcolumns
  · next hnone => exact hnone

/-! ## 3. All columns -/

/-- The generated names, the descriptive fields and the vault columns are
pairwise different. -/
theorem SatelliteNames.distinct_columns {s : Settings} {spec : EntitySpec} {n : SatelliteNames}
    (hvalid : s.validate = .ok ()) (hnames : SatelliteNames.of spec = .ok n)
    (hreserved : checkReserved s spec n.all = .ok ())
    (hclash : ∀ column ∈ s.columns.all, Ident.among n.all column = false) :
    DistinctFields (n.all ++ spec.descriptive ++ s.columns.all) := by
  have hfields : ∀ field ∈ spec.descriptive, ∀ name ∈ s.columns.all ++ n.all,
      name.sameName field = false :=
    fun field hfield => checkReserved_eq_ok_iff.mp hreserved field (List.mem_append_right _ hfield)
  refine List.pairwise_append.mpr
    ⟨List.pairwise_append.mpr ⟨SatelliteNames.distinct hnames, ?_, ?_⟩,
      s.columns_distinct hvalid, ?_⟩
  · exact (List.pairwise_append.mp spec.distinct).2.1
  · exact fun name hname field hfield =>
      hfields field hfield name (List.mem_append_right _ hname)
  · intro name hname column hcolumn
    rcases List.mem_append.mp hname with hgenerated | hfield
    · exact among_eq_false_iff.mp (hclash column hcolumn) name hgenerated
    · exact sameName_eq_false_symm
        (hfields name hfield column (List.mem_append_left _ hcolumn))

end DataVault.Generate
