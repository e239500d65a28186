/-
DataVault.Proofs.Entity.Reading — which rows are read as specifications.

The reader goes through the parts of a row one after the other and stops at
the first that it cannot read. Each part is read from its own text alone, so
the whole is read as a specification exactly if the parts of the
specification have the texts of the row (`EntitySpec.parse_eq_ok_iff`). The
rules of the kind are fields of a specification and need no mention there.

`WellFormed` says on the texts of a row, without the reader and without a
specification, that the row describes an entity of a kind;
`parse_accepts_iff` that those rows are read and no others.
-/
import DataVault.Entity.Spec
import DataVault.Proofs.Lists
import DataVault.Proofs.Sql.Reading

namespace DataVault.Entity

open DataVault.Lists DataVault.Results DataVault.Sql DataVault.Text

/-! ## 1. Kinds -/

namespace EntityKind

/-- The names of a kind, in lower case. -/
def spellings : EntityKind → List String
  | hub => ["hub"]
  | link => ["link"]
  | satellite => ["satellite", "sat"]

theorem ofName?_eq_some_iff {name : String} {kind : EntityKind} :
    ofName? name = some kind ↔ name ∈ kind.spellings := by
  constructor
  · intro h
    unfold ofName? at h
    split_ifs at h with hhub hlink hsatellite <;> cases h
    · exact List.mem_singleton.mpr hhub
    · exact List.mem_singleton.mpr hlink
    · simpa [spellings] using hsatellite
  · intro h
    cases kind <;> simp only [spellings, List.mem_cons, List.not_mem_nil, or_false] at h
    · rw [h]; rfl
    · rw [h]; rfl
    · rcases h with h | h <;> rw [h] <;> rfl

/-- A kind is known by each of its names, in any case. -/
theorem ofNameIgnoringCase?_eq_some_iff {text : String} {kind : EntityKind} :
    ofNameIgnoringCase? text = some kind ↔
      ∃ name ∈ kind.spellings, eqIgnoreCase text name = true := by
  have hlower : ∀ name ∈ kind.spellings, lower name = name := by
    cases kind <;> decide
  rw [ofNameIgnoringCase?, ofName?_eq_some_iff]
  constructor
  · exact fun hname => ⟨lower text, hname, eqIgnoreCase_iff.mpr (hlower _ hname).symm⟩
  · rintro ⟨name, hname, hsame⟩
    rw [eqIgnoreCase_iff.mp hsame, hlower name hname]
    exact hname

end EntityKind

namespace EntitySpec

/-! ## 2. Parts -/

section
variable {entity field text : String}

theorem requireField_eq_ok_iff {trimmed : String} :
    requireField entity field text = .ok trimmed ↔ trim text ≠ "" ∧ trim text = trimmed := by
  unfold requireField
  by_cases hempty : trim text = ""
  · simp [hempty]
  · have hne : ¬ (trim text).isEmpty = true := fun h => hempty (String.isEmpty_iff.mp h)
    simp [hne, hempty]

theorem parseIdent_eq_ok_iff {name : Ident} :
    parseIdent entity field text = .ok name ↔ name.text = trim text :=
  mapError_eq_ok_iff.trans parse_eq_ok_iff

end

/-- The rules that are checked are those of the type, so what passes is the
specification with these parts. -/
theorem make_eq_ok_iff {name : Ident} {kind : EntityKind} {businessKey descriptive : List Ident}
    {source : TableRef} {spec : EntitySpec} :
    make name kind businessKey descriptive source = .ok spec ↔
      spec.name = name ∧ spec.kind = kind ∧ spec.businessKey = businessKey ∧
        spec.descriptive = descriptive ∧ spec.source = source := by
  constructor
  · intro h
    unfold make at h
    split at h
    · split at h
      · split at h
        · cases h
        · cases h
          exact ⟨rfl, rfl, rfl, rfl, rfl⟩
      · split at h <;> cases h
    · cases h
  · rintro ⟨rfl, rfl, rfl, rfl, rfl⟩
    have hfresh : firstRepeated? [] (spec.businessKey ++ spec.descriptive) = none :=
      firstRepeated?_eq_none_iff.mpr ⟨nofun, spec.distinct⟩
    unfold make
    simp only
    rw [dif_pos spec.enoughKeys, dif_pos spec.describes_eq]
    split
    · next hrepeated => rw [hfresh] at hrepeated; cases hrepeated
    · rfl

/-! ## 3. Rows -/

/-- A specification has the texts of a row, without the blanks around them and
in their order. -/
structure HasTexts (spec : EntitySpec) (name kind : String) (businessKey descriptive : List String)
    (source : String) : Prop where
  name_eq : spec.name.text = trim name
  kind_spelled : ∃ spelling ∈ spec.kind.spellings, eqIgnoreCase (trim kind) spelling = true
  businessKey_eq : spec.businessKey.map Ident.text = businessKey.map trim
  descriptive_eq : spec.descriptive.map Ident.text = descriptive.map trim
  source_eq : ∃ parts, String.intercalate "." parts = trim source ∧
    spec.source.parts.map Ident.text = parts.map trim

/-- A row describes an entity of a kind. -/
structure WellFormed (k : EntityKind) (name kind : String) (businessKey descriptive : List String)
    (source : String) : Prop where
  name_isName : IsName (trim name)
  kind_spelled : ∃ spelling ∈ k.spellings, eqIgnoreCase (trim kind) spelling = true
  /-- One to three names with dots between them. -/
  source_dotted : ∃ parts, String.intercalate "." parts = trim source ∧
    (1 ≤ parts.length ∧ parts.length ≤ 3) ∧ ∀ part ∈ parts, IsName (trim part)
  fields_areNames : ∀ field ∈ businessKey ++ descriptive, IsName (trim field)
  enoughKeys : (if k = .link then 2 else 1) ≤ businessKey.length
  descriptive_iff : descriptive ≠ [] ↔ k = .satellite
  /-- No two fields of either list or of both have the same name. -/
  distinct : ((businessKey ++ descriptive).map trim).Pairwise fun a b => eqIgnoreCase a b = false

section
variable {name kind source : String} {businessKey descriptive : List String}

/-- A row is read as the specification that has its texts. -/
theorem parse_eq_ok_iff {spec : EntitySpec} :
    parse name kind businessKey descriptive source = .ok spec ↔
      spec.HasTexts name kind businessKey descriptive source := by
  unfold parse
  simp only [bind_eq_ok_iff, requireField_eq_ok_iff, parseIdent_eq_ok_iff]
  constructor
  · rintro ⟨entity, ⟨-, rfl⟩, ident, hname, kindName, ⟨-, rfl⟩, h⟩
    cases hkind : EntityKind.ofNameIgnoringCase? (trim kind) with
    | none => rw [hkind] at h; cases h
    | some entityKind =>
      simp only [hkind, bind_eq_ok_iff, requireField_eq_ok_iff, mapError_eq_ok_iff,
        TableRef.parse_eq_ok_iff, mapM_trimmed_eq_ok_iff parseIdent_eq_ok_iff] at h
      obtain ⟨sourceName, ⟨-, rfl⟩, table, hsource, keys, hkeys, fields, hfields, h⟩ := h
      obtain ⟨rfl, rfl, rfl, rfl, rfl⟩ := make_eq_ok_iff.mp h
      rw [trim_trim] at hname hsource
      exact ⟨hname, EntityKind.ofNameIgnoringCase?_eq_some_iff.mp hkind, hkeys, hfields, hsource⟩
  · rintro ⟨hname, hkind, hkeys, hfields, hsource⟩
    -- No part is blank, as a blank text has no name in it.
    have hnamed : trim name ≠ "" := hname ▸ ident_ne_empty spec.name
    have hread := EntityKind.ofNameIgnoringCase?_eq_some_iff.mpr hkind
    have hkindNamed : trim kind ≠ "" := by
      intro hempty
      rw [hempty] at hread
      cases hread
    have htable : TableRef.parse (trim source) = .ok spec.source :=
      TableRef.parse_eq_ok_iff.mpr ((trim_trim source).symm ▸ hsource)
    have hsourceNamed : trim source ≠ "" := by
      intro hempty
      rw [hempty] at htable
      cases htable
    refine ⟨_, ⟨hnamed, rfl⟩, spec.name, (trim_trim name).symm ▸ hname, _, ⟨hkindNamed, rfl⟩, ?_⟩
    rw [hread]
    simp only [bind_eq_ok_iff, requireField_eq_ok_iff, mapError_eq_ok_iff,
      mapM_trimmed_eq_ok_iff parseIdent_eq_ok_iff]
    exact ⟨_, ⟨hsourceNamed, rfl⟩, spec.source, htable, spec.businessKey, hkeys,
      spec.descriptive, hfields, make_eq_ok_iff.mpr ⟨rfl, rfl, rfl, rfl, rfl⟩⟩

/-- The texts of a specification make a well-formed row. -/
theorem HasTexts.wellFormed {spec : EntitySpec}
    (h : spec.HasTexts name kind businessKey descriptive source) :
    WellFormed spec.kind name kind businessKey descriptive source := by
  have hkeys : spec.businessKey.length = businessKey.length :=
    length_eq_of_map_eq h.businessKey_eq
  have hfields : (businessKey ++ descriptive).map trim = spec.fields.map Ident.text := by
    rw [fields, List.map_append, List.map_append, h.businessKey_eq, h.descriptive_eq]
  refine ⟨h.name_eq ▸ isName_iff.mpr ⟨_, rfl⟩, h.kind_spelled, ?_, ?_, ?_, ?_, ?_⟩
  · obtain ⟨parts, htext, hparts⟩ := h.source_eq
    have hlength : spec.source.parts.length = parts.length := length_eq_of_map_eq hparts
    refine ⟨parts, htext, hlength ▸ spec.source.length_parts, ?_⟩
    exact List.forall_mem_map.mp (exists_names_iff.mp ⟨_, hparts⟩)
  · exact List.forall_mem_map.mp (exists_names_iff.mp ⟨spec.fields, hfields.symm⟩)
  · rw [← hkeys]
    have henough := spec.enoughKeys
    cases hk : spec.kind <;> simpa [hk, EntityKind.minKeys] using henough
  · have hempty : descriptive = [] ↔ spec.descriptive = [] := by
      rw [← List.map_eq_nil_iff (f := trim), ← h.descriptive_eq, List.map_eq_nil_iff]
    have hdescribes := spec.describes_eq
    rw [Ne, hempty]
    cases hk : spec.kind <;> simp [hk, EntityKind.describes] at hdescribes ⊢ <;> exact hdescribes
  · rw [hfields, List.pairwise_map]
    exact spec.distinct

/-- A well-formed row has the texts of a specification. -/
theorem WellFormed.exists_spec {k : EntityKind}
    (h : WellFormed k name kind businessKey descriptive source) :
    ∃ spec : EntitySpec, spec.HasTexts name kind businessKey descriptive source := by
  obtain ⟨ident, hname⟩ := isName_iff.mp h.name_isName
  obtain ⟨hkeyNames, hfieldNames⟩ := List.forall_mem_append.mp h.fields_areNames
  obtain ⟨keys, hkeys⟩ := exists_names_iff.mpr (List.forall_mem_map.mpr hkeyNames)
  obtain ⟨fields, hfields⟩ := exists_names_iff.mpr (List.forall_mem_map.mpr hfieldNames)
  obtain ⟨parts, htext, hlength, hparts⟩ := h.source_dotted
  obtain ⟨names, hnames⟩ := exists_names_iff.mpr (List.forall_mem_map.mpr hparts)
  have hnamesLength : names.length = parts.length := length_eq_of_map_eq hnames
  obtain ⟨table, htable⟩ := TableRef.exists_of_parts (hnamesLength ▸ hlength)
  have henough : k.minKeys ≤ keys.length := by
    rw [length_eq_of_map_eq hkeys]
    cases k <;> exact h.enoughKeys
  have hdescribes : k.describes = !fields.isEmpty := by
    have hempty : fields = [] ↔ descriptive = [] := by
      rw [← List.length_eq_zero_iff, length_eq_of_map_eq hfields, List.length_eq_zero_iff]
    have hiff := h.descriptive_iff
    rw [Ne, ← hempty] at hiff
    cases k <;> simpa [EntityKind.describes, List.isEmpty_iff] using hiff
  have hdistinct : DistinctFields (keys ++ fields) := by
    have hpairs := h.distinct
    rw [List.map_append, ← hkeys, ← hfields, ← List.map_append, List.pairwise_map] at hpairs
    exact hpairs
  exact ⟨⟨ident, k, keys, fields, table, henough, hdescribes, hdistinct⟩, hname, h.kind_spelled,
    hkeys, hfields, parts, htext, htable ▸ hnames⟩

end

/-- Exactly the well-formed rows are read, each as the specification that has
its texts. -/
theorem parse_accepts_iff (name kind : String) (businessKey descriptive : List String)
    (source : String) :
    ((∃ spec, parse name kind businessKey descriptive source = .ok spec) ↔
        ∃ k, WellFormed k name kind businessKey descriptive source) ∧
      ∀ spec, parse name kind businessKey descriptive source = .ok spec ↔
        spec.HasTexts name kind businessKey descriptive source := by
  refine ⟨⟨?_, ?_⟩, fun spec => parse_eq_ok_iff⟩
  · rintro ⟨spec, hread⟩
    exact ⟨spec.kind, (parse_eq_ok_iff.mp hread).wellFormed⟩
  · rintro ⟨k, hrow⟩
    obtain ⟨spec, htexts⟩ := hrow.exists_spec
    exact ⟨spec, parse_eq_ok_iff.mpr htexts⟩

end EntitySpec

end DataVault.Entity
