/-
DataVault.Entity.Kind — the three kinds of vault entity.

A hub holds the business keys of one concept, a link relates two or more
hubs, a satellite holds the descriptive fields of a key over time.
-/
import DataVault.Text.Control

namespace DataVault.Entity

inductive EntityKind where
  | hub
  | link
  | satellite
  deriving DecidableEq

namespace EntityKind

def name : EntityKind → String
  | hub => "hub"
  | link => "link"
  | satellite => "satellite"

/-- The kind with exactly this name; `sat` is short for a satellite. -/
def ofName? (s : String) : Option EntityKind :=
  if s = "hub" then some hub
  else if s = "link" then some link
  else if s = "satellite" ∨ s = "sat" then some satellite
  else none

/-- The kind with this name, in any case. -/
def ofNameIgnoringCase? (s : String) : Option EntityKind := ofName? (Text.lower s)

/-- The least number of business key fields. -/
def minKeys : EntityKind → Nat
  | link => 2
  | hub | satellite => 1

/-- Only a satellite has descriptive fields, and it has at least one. -/
def describes : EntityKind → Bool
  | satellite => true
  | hub | link => false

end EntityKind

end DataVault.Entity
