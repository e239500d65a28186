/-
DataVault.Generate.Link — links.

A link becomes one table that relates two or more hubs. Its hash key is
taken over the business key fields in declared order, and each field also
gets the hash key of the hub keyed by that field alone, which joins the
link back to its hubs.
-/
import DataVault.Generate.Basic

namespace DataVault.Generate

open DataVault.Artifact DataVault.Entity DataVault.Sql

/-- The generated column names of a link. -/
structure LinkNames where
  hashKey : Ident
  hubKeys : List Ident
  businessKeys : List Ident

/-- Derives the names. -/
def LinkNames.of (spec : EntitySpec) : Except CompileError LinkNames := do
  let hashKey ← spec.derived spec.hashKeyName
  let hubKeys ← spec.derived spec.hubKeyNames
  let businessKeys ← spec.derived spec.businessKeyNames
  pure ⟨hashKey, hubKeys, businessKeys⟩

def LinkNames.all (n : LinkNames) : List Ident := n.hashKey :: n.hubKeys ++ n.businessKeys

/-- The hash keys of the hubs that a link relates. -/
def hubKeyItems (s : Settings) (fields names : List Ident) : List SelectItem :=
  List.zipWith (fun field name => .aliased (s.digestOf none [field]) name) fields names

/-- The distinct key tuples of the source with their hash keys. -/
def linkSelect (s : Settings) (spec : EntitySpec) (n : LinkNames) : Select where
  distinct := true
  items :=
    .aliased (s.digestOf none spec.businessKey) n.hashKey ::
      hubKeyItems s spec.businessKey n.hubKeys ++
      renamedItems spec.businessKey n.businessKeys ++ s.loadItems spec
  source := .table spec.source
  filter := none
  firstPer := none

/-- The descriptions of a link's columns. -/
def linkDocs (s : Settings) (spec : EntitySpec) (n : LinkNames) : List (String × String) :=
  (n.hashKey.text, "Link hash key over " ++ fieldList spec.businessKey ++ " (in this order)") ::
    List.zipWith (fun field name => (name.text, "Hash key of the hub keyed on " ++ field.text))
      spec.businessKey n.hubKeys ++
    businessKeyDocs spec.businessKey n.businessKeys ++ s.loadDocs

/-- The artifact of a link. -/
def generateLink (s : Settings) (spec : EntitySpec) : Except CompileError (List Artifact) := do
  expectKind spec .link
  let names ← LinkNames.of spec
  checkReserved s spec names.all
  let targetName ← spec.derived (spec.artifactName .primary)
  let description :=
    "Link " ++ spec.name.text ++ " between " ++ fieldList spec.businessKey ++ ", loaded from " ++
      spec.source.dotted
  pure [{
    targetName
    kind := .table
    entity := spec.name
    entityKind := .link
    role := .primary
    header := s.header spec .table names.hubKeys [] description (linkDocs s spec names)
    body := (Query.select (linkSelect s spec names)).toSql s.dialect }]

end DataVault.Generate
