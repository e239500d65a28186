/-
DataVault.Proofs.Compile.Canonical — the hashed forms tell inputs apart.

The hashes of a run are taken over compact JSON. A value can be read back
from that, so two values with one text are the same value. What is left is
that no two specifications, and no two settings, have the same JSON: every
field is a member of its own, names and references are told apart by their
texts, and each choice has a name that no other one has.
-/
import DataVault.Entity.Canonical
import DataVault.Generate.Settings
import DataVault.Proofs.Json.WrittenForms
import DataVault.Proofs.Sql.References

namespace DataVault.Compile

open DataVault.Digest DataVault.Entity DataVault.Generate DataVault.Json DataVault.Sql

/-! ## 1. Parts of a canonical form -/

theorem strings_text_inj {as bs : List Ident}
    (h : Value.strings (as.map Ident.text) = Value.strings (bs.map Ident.text)) : as = bs := by
  have htexts := List.map_injective_iff.mpr (fun _ _ => Value.string.inj) (Value.array.inj h)
  exact List.map_injective_iff.mpr (fun _ _ => Ident.ext_text) htexts

/-! ## 2. Specifications -/

theorem fits_spec {depth : Nat} (h : depth + 1 < maxDepth) (spec : EntitySpec) :
    spec.toJson.Fits depth :=
  ⟨by omega, trivial, trivial, fits_strings h _, fits_strings h _, trivial, trivial⟩

theorem kind_name_inj {a b : EntityKind} (h : a.name = b.name) : a = b := by
  cases a <;> cases b <;> first | rfl | exact absurd h (by decide)

/-- The canonical form tells specifications apart. -/
theorem spec_toJson_inj {a b : EntitySpec} (h : a.toJson = b.toJson) : a = b := by
  simp only [EntitySpec.toJson, Value.object.injEq, List.cons.injEq, Prod.mk.injEq,
    Value.string.injEq, true_and, and_true] at h
  obtain ⟨hname, hkind, hkeys, hfields, hsource⟩ := h
  cases a
  cases b
  cases Ident.ext_text hname
  cases kind_name_inj hkind
  cases strings_text_inj hkeys
  cases strings_text_inj hfields
  cases resolve_injective .postgres hsource
  rfl

/-- The text that the hash of a run's input is taken over. -/
def specsText (specs : List EntitySpec) : String :=
  (Value.array (specs.map EntitySpec.toJson)).compact

theorem specsText_inj {as bs : List EntitySpec} (h : specsText as = specsText bs) : as = bs := by
  have hfits : ∀ specs : List EntitySpec, (Value.array (specs.map EntitySpec.toJson)).Fits 0 :=
    fun specs => ⟨by decide, fitAll_map (fun spec => fits_spec (by decide) spec) specs⟩
  have hitems := Value.array.inj (compact_inj (hfits as) (hfits bs) h)
  exact List.map_injective_iff.mpr (fun _ _ => spec_toJson_inj) hitems

/-! ## 3. Settings -/

theorem fits_encoding {depth : Nat} (h : depth < maxDepth) (encoding : KeyEncoding) :
    (encodingJson encoding).Fits depth := by
  cases encoding
  · exact ⟨h, trivial, trivial, trivial⟩
  · exact ⟨h, trivial, trivial⟩

theorem fits_stringOrNull {depth : Nat} (text : Option String) :
    (Value.stringOrNull text).Fits depth := by
  cases text <;> trivial

theorem fits_settings (s : Settings) : s.toJson.Fits 0 :=
  ⟨by decide, trivial, fits_encoding (by decide) _, trivial, trivial, trivial, trivial, trivial,
    trivial, fits_stringOrNull _,
    ⟨by decide, trivial, trivial, trivial, trivial, trivial, trivial, trivial⟩, trivial⟩

theorem encodingJson_inj {a b : KeyEncoding} (h : encodingJson a = encodingJson b) : a = b := by
  cases a <;> cases b <;> simp_all [encodingJson]

theorem stringOrNull_inj {a b : Option String}
    (h : Value.stringOrNull a = Value.stringOrNull b) : a = b := by
  cases a <;> cases b <;> simp_all [Value.stringOrNull]

theorem dialect_name_inj {a b : Dialect} (h : a.name = b.name) : a = b := by
  cases a <;> cases b <;> first | rfl | exact absurd h (by decide)

theorem precision_name_inj {a b : LoadPrecision} (h : a.name = b.name) : a = b := by
  cases a <;> cases b <;> first | rfl | exact absurd h (by decide)

theorem materialization_name_inj {a b : Materialization} (h : a.name = b.name) : a = b := by
  cases a <;> cases b <;> first | rfl | exact absurd h (by decide)

theorem columns_toJson_inj {a b : VaultColumns} (h : a.toJson = b.toJson) : a = b := by
  simp only [VaultColumns.toJson, Value.object.injEq, List.cons.injEq, Prod.mk.injEq,
    Value.string.injEq, true_and, and_true] at h
  obtain ⟨hload, hsource, hdiff, hcurrent, hstart, hend⟩ := h
  cases a
  cases b
  cases Ident.ext_text hload
  cases Ident.ext_text hsource
  cases Ident.ext_text hdiff
  cases Ident.ext_text hcurrent
  cases Ident.ext_text hstart
  cases Ident.ext_text hend
  rfl

/-- The canonical form tells settings apart. -/
theorem settings_toJson_inj {a b : Settings} (h : a.toJson = b.toJson) : a = b := by
  simp only [Settings.toJson, Value.object.injEq, List.cons.injEq, Prod.mk.injEq,
    Value.string.injEq, Value.bool.injEq, true_and, and_true] at h
  obtain ⟨hschema, hencoding, hhistory, hdialect, hprecision, hmaterialization, hpartition,
    hcluster, hsource, hcolumns⟩ := h
  cases a
  cases b
  cases Ident.ext_text hschema
  cases encodingJson_inj hencoding
  cases hhistory
  cases dialect_name_inj hdialect
  cases precision_name_inj hprecision
  cases materialization_name_inj hmaterialization
  cases hpartition
  cases hcluster
  cases stringOrNull_inj hsource
  cases columns_toJson_inj hcolumns
  rfl

theorem settingsText_inj {a b : Settings} (h : a.toJson.compact = b.toJson.compact) : a = b :=
  settings_toJson_inj (compact_inj (fits_settings a) (fits_settings b) h)

end DataVault.Compile
