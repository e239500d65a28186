/-
DataVault.Proofs.Generate.Generated — what the generators give.

The three generators differ in their statements and agree in the rest.
`artifacts_of_generate` says what all of them have in common: an entity that is not
refused gets one artifact for each role of its kind, in the order of the
roles, under the name that it has for the role, in the schema of the
settings, and with its own name on it. So the names that it claimed are the
names that it produces (`artifactNames_of_generate`).

A generator refuses an entity for its kind, for a name or for a column: the
error is one of the specification, and never that of an artifact name that is
taken (`generate_refuses`).
-/
import DataVault.Generate.Dispatch
import DataVault.Guard.Claims
import DataVault.Proofs.Entity.Refusal
import DataVault.Proofs.Lists

namespace DataVault.Generate

open DataVault.Artifact DataVault.Entity DataVault.Guard DataVault.Lists DataVault.Results
  DataVault.Sql

/-! ## 1. Artifacts -/

theorem derived_eq_ok {spec : EntitySpec} {α : Type} {name : Except IdentError α} {value : α}
    (h : spec.derived name = .ok value) : name = .ok value :=
  mapError_eq_ok_iff.mp h

/-- The artifact that an entity has in a role. -/
structure ArtifactOf (s : Settings) (spec : EntitySpec) (role : ArtifactRole) (a : Artifact) :
    Prop where
  role_eq : a.role = role
  entity_eq : a.entity = spec.name
  entityKind_eq : a.entityKind = spec.kind
  name_eq : spec.artifactName role = .ok a.targetName
  schema_eq : a.header.schema = s.schema.text
  kind_eq : a.kind = if role = .satelliteMerge then .operation else .table
  /-- A merge is that of the entity. -/
  body_eq : role = .satelliteMerge → ∃ n, a.body = (mergeStatement s spec n).toSql s.dialect

section
variable {s : Settings} {spec : EntitySpec} {artifacts : List Artifact}

theorem expectKind_eq_ok {kind : EntityKind} (h : expectKind spec kind = .ok ()) :
    spec.kind = kind := by
  unfold expectKind at h
  split at h
  · assumption
  · cases h

theorem artifacts_of_hub (h : generateHub s spec = .ok artifacts) :
    List.Forall₂ (ArtifactOf s spec) [.primary] artifacts := by
  simp only [generateHub, bind_eq_ok_iff, pure_eq_ok_iff] at h
  obtain ⟨⟨⟩, hkind, names, -, ⟨⟩, -, target, htarget, rfl⟩ := h
  exact .cons ⟨rfl, rfl, (expectKind_eq_ok hkind).symm, derived_eq_ok htarget, rfl, rfl, nofun⟩
    .nil

theorem artifacts_of_link (h : generateLink s spec = .ok artifacts) :
    List.Forall₂ (ArtifactOf s spec) [.primary] artifacts := by
  simp only [generateLink, bind_eq_ok_iff, pure_eq_ok_iff] at h
  obtain ⟨⟨⟩, hkind, names, -, ⟨⟩, -, target, htarget, rfl⟩ := h
  exact .cons ⟨rfl, rfl, (expectKind_eq_ok hkind).symm, derived_eq_ok htarget, rfl, rfl, nofun⟩
    .nil

theorem artifactOf_base {n : SatelliteNames} {a : Artifact} (hkind : spec.kind = .satellite)
    (h : baseArtifact s spec n = .ok a) : ArtifactOf s spec .satelliteBase a := by
  simp only [baseArtifact, bind_eq_ok_iff, pure_eq_ok_iff] at h
  obtain ⟨target, htarget, rfl⟩ := h
  exact ⟨rfl, rfl, hkind.symm, derived_eq_ok htarget, rfl, rfl, nofun⟩

theorem artifactOf_merge {n : SatelliteNames} {a : Artifact}
    (hkind : spec.kind = .satellite) (h : mergeArtifact s spec n = .ok a) :
    ArtifactOf s spec .satelliteMerge a := by
  simp only [mergeArtifact, bind_eq_ok_iff, pure_eq_ok_iff] at h
  obtain ⟨target, htarget, rfl⟩ := h
  exact ⟨rfl, rfl, hkind.symm, derived_eq_ok htarget, rfl, rfl, fun _ => ⟨n, rfl⟩⟩

theorem artifacts_of_satellite (h : generateSatellite s spec = .ok artifacts) :
    List.Forall₂ (ArtifactOf s spec) (artifactRoles s .satellite) artifacts := by
  simp only [generateSatellite, bind_eq_ok_iff] at h
  obtain ⟨⟨⟩, hkind, names, -, ⟨⟩, -, base, hbase, h⟩ := h
  have hkind := expectKind_eq_ok hkind
  have hbase := artifactOf_base hkind hbase
  unfold artifactRoles
  cases hhistory : s.emitHistory with
  | false =>
    simp only [hhistory, Bool.false_eq_true, if_false, pure_eq_ok_iff] at h
    subst h
    exact .cons hbase .nil
  | true =>
    simp only [hhistory, if_true, bind_eq_ok_iff, pure_eq_ok_iff] at h
    obtain ⟨merge, hmerge, rfl⟩ := h
    exact .cons hbase (.cons (artifactOf_merge hkind hmerge) .nil)

/-- One artifact for each role of the kind, in the order of the roles. -/
theorem artifacts_of_generate (h : generate s spec = .ok artifacts) :
    List.Forall₂ (ArtifactOf s spec) (artifactRoles s spec.kind) artifacts := by
  unfold generate at h
  cases hkind : spec.kind with
  | hub => rw [hkind] at h; exact artifacts_of_hub h
  | link => rw [hkind] at h; exact artifacts_of_link h
  | satellite => rw [hkind] at h; exact artifacts_of_satellite h

theorem roles_of_generate (h : generate s spec = .ok artifacts) :
    artifacts.map Artifact.role = artifactRoles s spec.kind := by
  have hroles := (artifacts_of_generate h).imp fun _ _ ha => ha.role_eq
  rw [← List.forall₂_eq_eq_eq, List.forall₂_map_left_iff]
  exact hroles.flip

/-- The names that an entity claims are those that it produces. -/
theorem artifactNames_of_generate (h : generate s spec = .ok artifacts) :
    artifactNames s spec = artifacts.map Artifact.targetName := by
  refine filterMap_of_forall₂ ((artifacts_of_generate h).imp fun role a ha => ?_)
  rw [ha.name_eq]
  rfl

theorem artifactOf_of_mem (h : generate s spec = .ok artifacts) {a : Artifact}
    (ha : a ∈ artifacts) : ArtifactOf s spec a.role a := by
  obtain ⟨role, -, hrole⟩ := exists_of_mem_right (artifacts_of_generate h) ha
  exact hrole.role_eq ▸ hrole

end

/-! ## 2. Refusals -/

/-- The error is a rule that the specification breaks, and not that of a taken
artifact name. -/
def RefusalOf (spec : EntitySpec) (e : CompileError) : Prop :=
  ∃ violation : Violation, e = spec.reject violation ∧
    ∀ name owner, violation ≠ .artifactNameTaken name owner

section
variable (s : Settings) (spec : EntitySpec)

theorem failsWith_expectKind (expected : EntityKind) :
    FailsWith (RefusalOf spec) (expectKind spec expected) := by
  unfold expectKind
  split
  · exact failsWith_ok ()
  · exact failsWith_error ⟨_, rfl, by simp⟩

theorem failsWith_derived {α : Type} (name : Except IdentError α) :
    FailsWith (RefusalOf spec) (spec.derived name) :=
  failsWith_mapError (fun _ => ⟨_, rfl, by simp⟩) name

theorem failsWith_checkReserved (generated : List Ident) :
    FailsWith (RefusalOf spec) (checkReserved s spec generated) := by
  unfold checkReserved
  split
  · exact failsWith_error ⟨_, rfl, by simp⟩
  · exact failsWith_ok ()

theorem failsWith_generateHub : FailsWith (RefusalOf spec) (generateHub s spec) := by
  unfold generateHub HubNames.of
  refine (failsWith_expectKind spec .hub).bind fun _ => ?_
  refine FailsWith.bind ?_ fun names => ?_
  · refine (failsWith_derived spec _).bind fun hashKey => ?_
    exact (failsWith_derived spec _).bind fun businessKeys => failsWith_ok _
  · refine (failsWith_checkReserved s spec _).bind fun _ => ?_
    exact (failsWith_derived spec _).bind fun target => failsWith_ok _

theorem failsWith_generateLink : FailsWith (RefusalOf spec) (generateLink s spec) := by
  unfold generateLink LinkNames.of
  refine (failsWith_expectKind spec .link).bind fun _ => ?_
  refine FailsWith.bind ?_ fun names => ?_
  · refine (failsWith_derived spec _).bind fun hashKey => ?_
    refine (failsWith_derived spec _).bind fun hubKeys => ?_
    exact (failsWith_derived spec _).bind fun businessKeys => failsWith_ok _
  · refine (failsWith_checkReserved s spec _).bind fun _ => ?_
    exact (failsWith_derived spec _).bind fun target => failsWith_ok _

theorem failsWith_generateSatellite : FailsWith (RefusalOf spec) (generateSatellite s spec) := by
  unfold generateSatellite SatelliteNames.of baseArtifact mergeArtifact
  refine (failsWith_expectKind spec .satellite).bind fun _ => ?_
  refine FailsWith.bind ?_ fun names => ?_
  · refine (failsWith_derived spec _).bind fun hashKey => ?_
    exact (failsWith_derived spec _).bind fun businessKeys => failsWith_ok _
  · refine (failsWith_checkReserved s spec _).bind fun _ => ?_
    refine FailsWith.bind ((failsWith_derived spec _).bind fun target => failsWith_ok _) ?_
    intro base
    split
    · refine FailsWith.bind ((failsWith_derived spec _).bind fun target => failsWith_ok _) ?_
      exact fun merge => failsWith_ok _
    · exact failsWith_ok _

/-- A generator refuses an entity for what its specification is. -/
theorem generate_refuses : FailsWith (RefusalOf spec) (generate s spec) := by
  unfold generate generatorFor
  cases spec.kind with
  | hub => exact failsWith_generateHub s spec
  | link => exact failsWith_generateLink s spec
  | satellite => exact failsWith_generateSatellite s spec

end

end DataVault.Generate
