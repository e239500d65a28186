/-
DataVault.Artifact.Json — artifacts as JSON.

The members are in a fixed order, and an absent partition expression is
left out. Reading accepts what writing produces, and fills in what a header
leaves out.
-/
import DataVault.Artifact.Basic
import DataVault.Generate.SettingsDocument

namespace DataVault.Artifact

open DataVault.Document DataVault.Entity DataVault.Generate DataVault.Json

/-! ## 1. Writing -/

def Header.toJson (h : Header) : Value :=
  .object <|
    [("schema", .string h.schema),
     ("incremental", .bool h.incremental),
     ("tags", .strings h.tags),
     ("description", .string h.description)] ++
    (h.partitionBy.map fun text => ("partition_by", Value.string text)).toList ++
    [("cluster_by", .strings h.clusterBy),
     ("columns", .object (h.columns.map fun (name, doc) => (name, .string doc)))]

def toJson (a : Artifact) : Value :=
  .object [
    ("target_name", .string a.targetName.text),
    ("kind", .string a.kind.name),
    ("entity", .string a.entity.text),
    ("entity_kind", .string a.entityKind.name),
    ("role", .string a.role.name),
    ("header", a.header.toJson),
    ("body", .string a.body)]

/-! ## 2. Reading -/

def Header.fields : List (List String) :=
  [["schema"], ["incremental"], ["tags"], ["description"], ["partition_by"], ["cluster_by"],
   ["columns"]]

/-- The header at a node. Only the schema has to be there. -/
def Header.ofNode? (form : Notation) (n : Node) : Option Header := do
  let r ← n.record? form Header.fields
  some {
    schema := ← r.required 0 Node.text?
    incremental := ← r.orElse 1 false Node.bool?
    tags := ← r.orElse 2 [] (Node.listOf? Node.text?)
    description := ← r.orElse 3 "" Node.text?
    partitionBy := ← r.orElse 4 none (Record.optionalOf Node.text?)
    clusterBy := ← r.orElse 5 [] (Node.listOf? Node.text?)
    columns := ← r.orElse 6 [] (Node.textTable? putColumn []) }

def fields : List (List String) :=
  [["target_name"], ["kind"], ["entity"], ["entity_kind"], ["role"], ["header"], ["body"]]

/-- The artifact at a node. -/
def ofNode? (form : Notation) (n : Node) : Option Artifact := do
  let r ← n.record? form fields
  some {
    targetName := ← r.required 0 ident?
    kind := ← r.required 1 (chosen? form ArtifactKind.ofName?)
    entity := ← r.required 2 ident?
    entityKind := ← r.required 3 (chosen? form EntityKind.ofName?)
    role := ← r.required 4 (chosen? form ArtifactRole.ofName?)
    header := ← r.required 5 (Header.ofNode? form)
    body := ← r.required 6 Node.text? }

end DataVault.Artifact
