/-
DataVault.Generate.Dispatch — generation of a list of entities.

Each entity goes to the generator of its kind. The artifacts of accepted
entities and the rejections of refused ones both keep the order of the
list, also where the entities are generated on a pool of workers: what its
workers make is collected in the order of the entities.
-/
import DataVault.Entity.Rejection
import DataVault.Generate.Hub
import DataVault.Generate.Link
import DataVault.Generate.Satellite

namespace DataVault.Generate

open DataVault.Artifact DataVault.Entity

/-! ## 1. One entity after the other -/

/-- The generator of a kind. -/
def generatorFor : EntityKind → Settings → EntitySpec → Except CompileError (List Artifact)
  | .hub => generateHub
  | .link => generateLink
  | .satellite => generateSatellite

/-- All artifacts of one entity, or none of them. -/
def generate (s : Settings) (spec : EntitySpec) : Except CompileError (List Artifact) :=
  generatorFor spec.kind s spec

/-- What a list of entities became. -/
structure Outcome where
  artifacts : List Artifact
  rejections : List Rejection

/-- The artifacts of one entity, none where it is refused. -/
def artifactsOf (s : Settings) (spec : EntitySpec) : List Artifact :=
  match generate s spec with
  | .ok artifacts => artifacts
  | .error _ => []

/-- The rejection of one entity, where it is refused. -/
def rejectionOf? (s : Settings) (spec : EntitySpec) : Option Rejection :=
  match generate s spec with
  | .ok _ => none
  | .error e => some (.ofError none spec.name.text e)

/-- Generates every entity of the list. -/
def dispatch (s : Settings) (specs : List EntitySpec) : Outcome :=
  ⟨specs.flatMap (artifactsOf s), specs.filterMap (rejectionOf? s)⟩

/-! ## 2. Pools of workers -/

/-- What a generator makes of one entity. -/
abbrev Result := Except CompileError (List Artifact)

/-- A pool of workers. It applies a function to every entity of a list and
collects the results. -/
abbrev Pool := (EntitySpec → Result) → List EntitySpec → List Result

namespace Pool

/-- Each result is collected at the place of its entity, whichever worker
made it and in whichever order they are done. -/
def KeepsOrder (pool : Pool) : Prop :=
  ∀ f specs (index : Nat), (pool f specs)[index]? = specs[index]?.map f

/-- The pool of one worker, which takes the entities in turn. -/
def single : Pool := fun f specs => specs.map f

end Pool

/-- Adds what became of an entity. -/
def Outcome.add (o : Outcome) (spec : EntitySpec) : Result → Outcome
  | .ok artifacts => { o with artifacts := o.artifacts ++ artifacts }
  | .error e => { o with rejections := o.rejections ++ [.ofError none spec.name.text e] }

/-- Goes through the entities and their results side by side. -/
def collect (specs : List EntitySpec) (results : List Result) : Outcome :=
  (specs.zip results).foldl (fun o entry => o.add entry.1 entry.2) ⟨[], []⟩

/-- Generates every entity of the list on a pool. -/
def dispatchOn (pool : Pool) (s : Settings) (specs : List EntitySpec) : Outcome :=
  collect specs (pool (generate s) specs)

end DataVault.Generate
