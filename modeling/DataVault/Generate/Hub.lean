/-
DataVault.Generate.Hub — hubs.

A hub becomes one table: the distinct business keys of the source, each
with its hash key.
-/
import DataVault.Generate.Basic

namespace DataVault.Generate

open DataVault.Artifact DataVault.Entity DataVault.Sql

/-- The generated column names of a hub. -/
structure HubNames where
  hashKey : Ident
  businessKeys : List Ident

/-- Derives the names. -/
def HubNames.of (spec : EntitySpec) : Except CompileError HubNames := do
  let hashKey ← spec.derived spec.hashKeyName
  let businessKeys ← spec.derived spec.businessKeyNames
  pure ⟨hashKey, businessKeys⟩

def HubNames.all (n : HubNames) : List Ident := n.hashKey :: n.businessKeys

/-- The distinct keys of the source with their hash key. -/
def hubSelect (s : Settings) (spec : EntitySpec) (n : HubNames) : Select where
  distinct := true
  items :=
    .aliased (s.digestOf none spec.businessKey) n.hashKey ::
      renamedItems spec.businessKey n.businessKeys ++ s.loadItems spec
  source := .table spec.source
  filter := none
  firstPer := none

/-- The descriptions of a hub's columns. -/
def hubDocs (s : Settings) (spec : EntitySpec) (n : HubNames) : List (String × String) :=
  (n.hashKey.text, "Hash key over " ++ fieldList spec.businessKey) ::
    businessKeyDocs spec.businessKey n.businessKeys ++ s.loadDocs

/-- The artifact of a hub. -/
def generateHub (s : Settings) (spec : EntitySpec) : Except CompileError (List Artifact) := do
  expectKind spec .hub
  let names ← HubNames.of spec
  checkReserved s spec names.all
  let targetName ← spec.derived (spec.artifactName .primary)
  let description :=
    "Hub " ++ spec.name.text ++ " keyed on " ++ fieldList spec.businessKey ++ ", loaded from " ++
      spec.source.dotted
  pure [{
    targetName
    kind := .table
    entity := spec.name
    entityKind := .hub
    role := .primary
    header := s.header spec .table names.businessKeys [] description (hubDocs s spec names)
    body := (Query.select (hubSelect s spec names)).toSql s.dialect }]

end DataVault.Generate
