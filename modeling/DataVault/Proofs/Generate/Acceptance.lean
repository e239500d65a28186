/-
DataVault.Proofs.Generate.Acceptance — which entities are generated.

The three generators go through the same checks: the names of the generated
columns are derived, the declared fields are compared with these names and
with the vault columns, and the names of the artifacts are derived
(`exists_generate_iff`). A derived name is made of names and of letters and
underscores, so it can only be too long. Of the names of the columns the hash
key is the longest, since it holds every business key field and ends in no
fewer characters than the others.

`Acceptable` says on texts alone what is left to check, and
`generate_accepts_iff` that an entity is generated exactly if it is
acceptable, and refused for its specification otherwise.
-/
import DataVault.Proofs.Generate.SatelliteColumns
import DataVault.Proofs.Sql.Reading

namespace DataVault.Generate

open DataVault.Artifact DataVault.Entity DataVault.Guard DataVault.Results DataVault.Sql
  DataVault.Text

/-! ## 1. Derived names -/

/-- The text of the hash key column. -/
def hashKeyText (spec : EntitySpec) : String := Ident.textsJoined "_" spec.businessKey ++ "_hk"

/-- The texts of the names that are generated for the columns of an entity: the
hash key and the business key columns, for a link also the hub keys, and for a
satellite also the merge key. -/
def generatedTexts (spec : EntitySpec) : List String :=
  hashKeyText spec ::
    (match spec.kind with
      | .hub => []
      | .link => spec.businessKey.map fun field => field.text ++ "_hk"
      | .satellite => ["merge_key"]) ++
    spec.businessKey.map fun field => field.text ++ "_bk"

/-- A name with a suffix can only be too long. -/
theorem exists_withSuffix_iff (name : Ident) {suffix : String}
    (hsuffix : ("_" ++ suffix).toList.all Ident.isPart = true) :
    (∃ longer, name.withSuffix suffix = .ok longer) ↔
      (name.text ++ ("_" ++ suffix)).utf8ByteSize ≤ 128 := by
  unfold Ident.withSuffix
  rw [exists_parse_iff, String.append_assoc, isName_append_iff hsuffix]

section
variable {spec : EntitySpec}

theorem businessKey_ne_nil (spec : EntitySpec) : spec.businessKey ≠ [] := by
  intro hnil
  have henough := spec.enoughKeys
  rw [hnil] at henough
  cases hkind : spec.kind <;> simp [hkind, EntityKind.minKeys] at henough

theorem text_of_hashKeyName {name : Ident} (h : spec.hashKeyName = .ok name) :
    name.text = hashKeyText spec := by
  rw [hashKeyName_text h, hashKeyText, String.append_assoc]
  rfl

/-- The hash key can only be too long. -/
theorem exists_hashKeyName_iff :
    (∃ name, spec.hashKeyName = .ok name) ↔ (hashKeyText spec).utf8ByteSize ≤ 128 := by
  constructor
  · rintro ⟨name, hname⟩
    exact text_of_hashKeyName hname ▸ name.short
  · intro hshort
    obtain ⟨first, rest, hfields⟩ := List.exists_cons_of_ne_nil (businessKey_ne_nil spec)
    obtain ⟨more, hjoined, hmore⟩ := exists_textsJoined_cons first rest
    rw [← hfields] at hjoined
    have hlabel : IsName (Ident.textsJoined "_" spec.businessKey) := by
      have hle : (Ident.textsJoined "_" spec.businessKey).utf8ByteSize ≤
          (hashKeyText spec).utf8ByteSize := by
        rw [hashKeyText, String.utf8ByteSize_append]
        exact Nat.le_add_right _ _
      rw [hjoined, isName_append_iff hmore, ← hjoined]
      exact hle.trans hshort
    obtain ⟨label, htext⟩ := isName_iff.mp hlabel
    have hsuffixed : (label.text ++ ("_" ++ "hk")).utf8ByteSize ≤ 128 := htext ▸ hshort
    obtain ⟨name, hname⟩ := (exists_withSuffix_iff label (by decide)).mpr hsuffixed
    exact ⟨name, bind_eq_ok_iff.mpr ⟨label, parse_eq_ok_iff.mpr htext, hname⟩⟩

/-- A field with a suffix as long as that of the hash key is no longer than
the hash key. -/
theorem size_le_hashKeyText {field : Ident} (hfield : field ∈ spec.businessKey) {suffix : String}
    (hsuffix : suffix.utf8ByteSize = "_hk".utf8ByteSize) :
    (field.text ++ suffix).utf8ByteSize ≤ (hashKeyText spec).utf8ByteSize := by
  obtain ⟨before, after, hjoined⟩ := exists_textsJoined_eq "_" hfield
  rw [hashKeyText, hjoined]
  simp only [String.utf8ByteSize_append, hsuffix]
  omega

/-- If the hash key is short enough, so are the columns of the fields. -/
theorem exists_suffixed {suffix : String}
    (hparts : ("_" ++ suffix).toList.all Ident.isPart = true)
    (hsize : ("_" ++ suffix).utf8ByteSize = "_hk".utf8ByteSize)
    (hshort : (hashKeyText spec).utf8ByteSize ≤ 128) :
    ∃ names, spec.businessKey.mapM (fun field => field.withSuffix suffix) = .ok names :=
  exists_mapM_eq_ok_iff.mpr fun _ hfield =>
    (exists_withSuffix_iff _ hparts).mpr ((size_le_hashKeyText hfield hsize).trans hshort)

/-- The texts of suffixed names are those of the fields with the suffix. -/
theorem map_text_of_suffixed {suffix : String} {fields names : List Ident}
    (h : Suffixed suffix fields names) :
    names.map Ident.text = fields.map fun field => field.text ++ ("_" ++ suffix) := by
  rw [← List.forall₂_eq_eq_eq, List.forall₂_map_left_iff, List.forall₂_map_right_iff]
  refine h.flip.imp fun name field htext => ?_
  rw [htext, String.append_assoc]

end

/-! ## 2. The names of an entity -/

/-- The names that are generated for the columns of an entity. -/
def generatedNames (spec : EntitySpec) : Except CompileError (List Ident) :=
  match spec.kind with
  | .hub => (HubNames.of spec).map HubNames.all
  | .link => (LinkNames.of spec).map LinkNames.all
  | .satellite => (SatelliteNames.of spec).map SatelliteNames.all

section
variable {spec : EntitySpec}

/-- The names exist exactly if the hash key is short enough. -/
theorem exists_generatedNames_iff :
    (∃ names, generatedNames spec = .ok names) ↔ (hashKeyText spec).utf8ByteSize ≤ 128 := by
  constructor
  · rintro ⟨names, hnames⟩
    refine exists_hashKeyName_iff.mp ?_
    unfold generatedNames HubNames.of LinkNames.of SatelliteNames.of at hnames
    split at hnames <;> simp only [map_eq_ok_iff, bind_eq_ok_iff] at hnames <;>
      obtain ⟨_, ⟨hashKey, hhash, -⟩, -⟩ := hnames <;> exact ⟨hashKey, derived_eq_ok hhash⟩
  · intro hshort
    obtain ⟨hashKey, hhash⟩ := exists_hashKeyName_iff.mpr hshort
    obtain ⟨businessKeys, hkeys⟩ : ∃ names, spec.businessKeyNames = .ok names :=
      exists_suffixed (by decide) rfl hshort
    obtain ⟨hubKeys, hhubs⟩ : ∃ names, spec.hubKeyNames = .ok names :=
      exists_suffixed (by decide) rfl hshort
    unfold generatedNames HubNames.of LinkNames.of SatelliteNames.of
    rw [hhash, hkeys, hhubs]
    cases spec.kind <;> exact ⟨_, rfl⟩

/-- The names have the texts that are expected of them. -/
theorem map_text_generatedNames {names : List Ident} (h : generatedNames spec = .ok names) :
    names.map Ident.text = generatedTexts spec := by
  have hhash : ∀ {hashKey}, spec.derived spec.hashKeyName = .ok hashKey →
      hashKey.text = hashKeyText spec :=
    fun hhash => text_of_hashKeyName (derived_eq_ok hhash)
  have hkeys : ∀ {businessKeys}, spec.derived spec.businessKeyNames = .ok businessKeys →
      businessKeys.map Ident.text = spec.businessKey.map fun field => field.text ++ "_bk" :=
    fun hkeys => map_text_of_suffixed (suffixed_businessKeyNames (derived_eq_ok hkeys))
  have hhubs : ∀ {hubKeys}, spec.derived spec.hubKeyNames = .ok hubKeys →
      hubKeys.map Ident.text = spec.businessKey.map fun field => field.text ++ "_hk" :=
    fun hhubs => map_text_of_suffixed (suffixed_hubKeyNames (derived_eq_ok hhubs))
  unfold generatedNames HubNames.of LinkNames.of SatelliteNames.of at h
  cases hkind : spec.kind with
  | hub =>
    simp only [hkind, map_eq_ok_iff, bind_eq_ok_iff, pure_eq_ok_iff] at h
    obtain ⟨_, ⟨hashKey, hhashKey, businessKeys, hbusinessKeys, rfl⟩, rfl⟩ := h
    simp [generatedTexts, HubNames.all, hkind, hhash hhashKey, hkeys hbusinessKeys]
  | link =>
    simp only [hkind, map_eq_ok_iff, bind_eq_ok_iff, pure_eq_ok_iff] at h
    obtain ⟨_, ⟨hashKey, hhashKey, hubKeys, hhubKeys, businessKeys, hbusinessKeys, rfl⟩, rfl⟩ := h
    simp [generatedTexts, LinkNames.all, hkind, hhash hhashKey, hkeys hbusinessKeys,
      hhubs hhubKeys]
  | satellite =>
    simp only [hkind, map_eq_ok_iff, bind_eq_ok_iff, pure_eq_ok_iff] at h
    obtain ⟨_, ⟨hashKey, hhashKey, businessKeys, hbusinessKeys, rfl⟩, rfl⟩ := h
    simp [generatedTexts, SatelliteNames.all, hkind, hhash hhashKey, hkeys hbusinessKeys, mergeKey]

end

/-! ## 3. The checks of a generator -/

section
variable {s : Settings} {spec : EntitySpec}

/-- A generator checks the kind, then the fields against the names that it
derives, and then builds the artifacts, for which it needs `Q`. -/
theorem exists_checked_iff {α : Type} {kind : EntityKind} {names : Except CompileError α}
    {all : α → List Ident} {build : α → Except CompileError (List Artifact)} {Q : Prop}
    (hkind : spec.kind = kind) (hbuild : ∀ n, (∃ artifacts, build n = .ok artifacts) ↔ Q) :
    (∃ artifacts, (do
        expectKind spec kind
        let n ← names
        checkReserved s spec (all n)
        build n) = Except.ok artifacts) ↔
      (∃ generated, names.map all = .ok generated ∧ checkReserved s spec generated = .ok ()) ∧
        Q := by
  simp only [bind_eq_ok_iff, map_eq_ok_iff]
  constructor
  · rintro ⟨artifacts, ⟨⟩, -, n, hnames, ⟨⟩, hreserved, hartifacts⟩
    exact ⟨⟨all n, ⟨n, hnames, rfl⟩, hreserved⟩, (hbuild n).mp ⟨artifacts, hartifacts⟩⟩
  · rintro ⟨⟨_, ⟨n, hnames, rfl⟩, hreserved⟩, hneeded⟩
    obtain ⟨artifacts, hartifacts⟩ := (hbuild n).mpr hneeded
    exact ⟨artifacts, (), if_pos hkind, n, hnames, (), hreserved, hartifacts⟩

/-- What is built under a name only needs the name. -/
theorem exists_derived_iff {β : Type} {name : Except IdentError Ident} {build : Ident → β} :
    (∃ b, (do pure (build (← spec.derived name))) = Except.ok b) ↔
      ∃ target, name = .ok target := by
  simp only [bind_eq_ok_iff, pure_eq_ok_iff, EntitySpec.derived, mapError_eq_ok_iff]
  constructor
  · rintro ⟨_, target, htarget, -⟩
    exact ⟨target, htarget⟩
  · rintro ⟨target, htarget⟩
    exact ⟨build target, target, htarget, rfl⟩

/-- The artifacts of a satellite are built one after the other. -/
theorem exists_satelliteArtifacts_iff (n : SatelliteNames) :
    (∃ artifacts, (do
        let base ← baseArtifact s spec n
        if s.emitHistory then do
          let merge ← mergeArtifact s spec n
          pure [base, merge]
        else pure [base]) = Except.ok artifacts) ↔
      ∀ role ∈ artifactRoles s .satellite, ∃ name, spec.artifactName role = .ok name := by
  have hbase : (∃ base, baseArtifact s spec n = .ok base) ↔
      ∃ name, spec.artifactName .satelliteBase = .ok name := exists_derived_iff
  have hmerge : (∃ merge, mergeArtifact s spec n = .ok merge) ↔
      ∃ name, spec.artifactName .satelliteMerge = .ok name := exists_derived_iff
  unfold artifactRoles
  cases s.emitHistory with
  | false =>
    simp only [Bool.false_eq_true, if_false, bind_eq_ok_iff, pure_eq_ok_iff,
      List.forall_mem_singleton, ← hbase]
    constructor
    · rintro ⟨_, base, hbase, -⟩
      exact ⟨base, hbase⟩
    · rintro ⟨base, hbase⟩
      exact ⟨[base], base, hbase, rfl⟩
  | true =>
    simp only [if_true, bind_eq_ok_iff, pure_eq_ok_iff, List.forall_mem_cons, List.not_mem_nil,
      false_imp_iff, implies_true, and_true, ← hbase, ← hmerge]
    constructor
    · rintro ⟨_, base, hbase, merge, hmerge, -⟩
      exact ⟨⟨base, hbase⟩, merge, hmerge⟩
    · rintro ⟨⟨base, hbase⟩, merge, hmerge⟩
      exact ⟨[base, merge], base, hbase, merge, hmerge, rfl⟩

/-- The generators differ in the names that they derive, and agree in what they
check. -/
theorem exists_generate_iff :
    (∃ artifacts, generate s spec = .ok artifacts) ↔
      (∃ names, generatedNames spec = .ok names ∧ checkReserved s spec names = .ok ()) ∧
        ∀ role ∈ artifactRoles s spec.kind, ∃ name, spec.artifactName role = .ok name := by
  unfold generate generatorFor generatedNames
  cases hkind : spec.kind with
  | hub =>
    simp only [artifactRoles, List.forall_mem_singleton]
    exact exists_checked_iff hkind fun _ => exists_derived_iff
  | link =>
    simp only [artifactRoles, List.forall_mem_singleton]
    exact exists_checked_iff hkind fun _ => exists_derived_iff
  | satellite => exact exists_checked_iff hkind exists_satelliteArtifacts_iff

end

/-! ## 4. Acceptance -/

/-- What an entity has to be for its artifacts to be generated. -/
structure Acceptable (s : Settings) (spec : EntitySpec) : Prop where
  /-- No declared field has the name of a vault column or of a generated one. -/
  unreserved : ∀ field ∈ spec.fields,
    ∀ text ∈ s.columns.all.map Ident.text ++ generatedTexts spec,
      eqIgnoreCase text field.text = false
  hashKey_short : (hashKeyText spec).utf8ByteSize ≤ 128
  base_short : spec.kind = .satellite → (spec.name.text ++ "_base").utf8ByteSize ≤ 128
  merge_short : spec.kind = .satellite → s.emitHistory = true →
    (spec.name.text ++ "_merge").utf8ByteSize ≤ 128

section
variable {s : Settings} {spec : EntitySpec}

theorem checkReserved_iff_unreserved {names : List Ident}
    (h : names.map Ident.text = generatedTexts spec) :
    checkReserved s spec names = .ok () ↔
      ∀ field ∈ spec.fields, ∀ text ∈ s.columns.all.map Ident.text ++ generatedTexts spec,
        eqIgnoreCase text field.text = false := by
  rw [checkReserved_eq_ok_iff, ← h, ← List.map_append]
  simp only [List.forall_mem_map]
  rfl

/-- The artifact names of a satellite can only be too long. -/
theorem exists_artifactNames_iff :
    (∀ role ∈ artifactRoles s spec.kind, ∃ name, spec.artifactName role = .ok name) ↔
      (spec.kind = .satellite → (spec.name.text ++ "_base").utf8ByteSize ≤ 128) ∧
        (spec.kind = .satellite → s.emitHistory = true →
          (spec.name.text ++ "_merge").utf8ByteSize ≤ 128) := by
  have hbase : (∃ name, spec.artifactName .satelliteBase = .ok name) ↔
      (spec.name.text ++ "_base").utf8ByteSize ≤ 128 :=
    exists_withSuffix_iff spec.name (by decide)
  have hmerge : (∃ name, spec.artifactName .satelliteMerge = .ok name) ↔
      (spec.name.text ++ "_merge").utf8ByteSize ≤ 128 :=
    exists_withSuffix_iff spec.name (by decide)
  have hprimary : ∃ name, spec.artifactName .primary = .ok name := ⟨spec.name, rfl⟩
  unfold artifactRoles
  cases spec.kind with
  | hub => simp [hprimary]
  | link => simp [hprimary]
  | satellite => cases s.emitHistory <;> simp [hbase, hmerge]

/-- An entity is generated exactly if it is acceptable. -/
theorem exists_generate_iff_acceptable :
    (∃ artifacts, generate s spec = .ok artifacts) ↔ Acceptable s spec := by
  rw [exists_generate_iff, exists_artifactNames_iff]
  constructor
  · rintro ⟨⟨names, hnames, hreserved⟩, hbase, hmerge⟩
    exact ⟨(checkReserved_iff_unreserved (map_text_generatedNames hnames)).mp hreserved,
      exists_generatedNames_iff.mp ⟨names, hnames⟩, hbase, hmerge⟩
  · rintro ⟨hunreserved, hshort, hbase, hmerge⟩
    obtain ⟨names, hnames⟩ := exists_generatedNames_iff.mpr hshort
    exact ⟨⟨names, hnames,
      (checkReserved_iff_unreserved (map_text_generatedNames hnames)).mpr hunreserved⟩,
      hbase, hmerge⟩

end

/-- The acceptable entities get artifacts, and every other one gets an error
that says what its specification breaks. -/
theorem generate_accepts_iff (s : Settings) (spec : EntitySpec) :
    ((∃ artifacts, generate s spec = .ok artifacts) ↔ Acceptable s spec) ∧
      ((∃ violation, generate s spec = .error (.invalidSpec spec.name.text violation)) ↔
        ¬ Acceptable s spec) := by
  refine ⟨exists_generate_iff_acceptable, ?_⟩
  rw [← exists_generate_iff_acceptable]
  constructor
  · rintro ⟨violation, hrefused⟩ ⟨artifacts, haccepted⟩
    rw [hrefused] at haccepted
    cases haccepted
  · intro hnone
    cases hresult : generate s spec with
    | ok artifacts => exact absurd ⟨artifacts, hresult⟩ hnone
    | error e =>
      obtain ⟨violation, rfl, -⟩ := generate_refuses s spec e hresult
      exact ⟨violation, rfl⟩

end DataVault.Generate
