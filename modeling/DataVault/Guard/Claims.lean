/-
DataVault.Guard.Claims — which entity owns which artifact name.

Entities claim the names of their artifacts in order, and the first one to
claim a name keeps it, names being compared without case. An entity that
loses any of its names claims none of them. A name too long for an
identifier is not claimed; the generators refuse its entity.
-/
import DataVault.Entity.Naming
import DataVault.Generate.Settings

namespace DataVault.Guard

open DataVault.Entity DataVault.Generate DataVault.Sql

/-- The artifacts that an entity of a kind has. -/
def artifactRoles (s : Settings) : EntityKind → List ArtifactRole
  | .hub | .link => [.primary]
  | .satellite =>
      if s.emitHistory then [.satelliteBase, .satelliteMerge] else [.satelliteBase]

/-- The names that an entity claims. -/
def artifactNames (s : Settings) (spec : EntitySpec) : List Ident :=
  (artifactRoles s spec.kind).filterMap fun role => (spec.artifactName role).toOption

/-- A name with the entity that owns it. -/
structure Claim where
  name : Ident
  owner : Ident
  deriving DecidableEq

/-- An entity that loses one of its names to an earlier one. -/
structure Overlap where
  /-- Position of the entity in the list. -/
  index : Nat
  name : Ident
  owner : Ident
  deriving DecidableEq

structure Claims where
  claimed : List Claim
  /-- In the order of the entities, at most one for each. -/
  overlaps : List Overlap
  deriving DecidableEq

namespace Claims

/-- The owner of a name. -/
def owner? (c : Claims) (name : Ident) : Option Ident :=
  (c.claimed.find? fun claim => claim.name.sameName name).map Claim.owner

/-- The first of the names that is taken, with its owner. -/
def taken? (c : Claims) (names : List Ident) : Option Claim :=
  names.findSome? fun name => (c.owner? name).map (Claim.mk name)

/-- The entity at a position claims its names. -/
def add (s : Settings) (c : Claims) (index : Nat) (spec : EntitySpec) : Claims :=
  let names := artifactNames s spec
  match c.taken? names with
  | some claim => { c with overlaps := c.overlaps ++ [⟨index, claim.name, claim.owner⟩] }
  | none => { c with claimed := c.claimed ++ names.map fun name => ⟨name, spec.name⟩ }

/-- Entities from a position on claim their names. -/
def addFrom (s : Settings) (c : Claims) (index : Nat) : List EntitySpec → Claims
  | [] => c
  | spec :: specs => addFrom s (c.add s index spec) (index + 1) specs

/-- The claims of a list of entities. -/
def of (s : Settings) (specs : List EntitySpec) : Claims := addFrom s ⟨[], []⟩ 0 specs

end Claims

end DataVault.Guard
