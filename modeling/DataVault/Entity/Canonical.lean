/-
DataVault.Entity.Canonical — the canonical form of a set of entities.

The hash of a run's input is taken over the compact JSON of the accepted
specifications, members in a fixed order. It depends on the specifications
and their order alone.
-/
import DataVault.Digest.Sha256
import DataVault.Entity.Spec
import DataVault.Json.Value

namespace DataVault.Entity

open DataVault.Digest DataVault.Json DataVault.Sql

/-- The specification as JSON. -/
def EntitySpec.toJson (spec : EntitySpec) : Value :=
  .object [
    ("name", .string spec.name.text),
    ("kind", .string spec.kind.name),
    ("business_key", .strings (spec.businessKey.map Ident.text)),
    ("descriptive_fields", .strings (spec.descriptive.map Ident.text)),
    ("source_table", .string spec.source.dotted)]

/-- The hash of a list of specifications. -/
def inputHash (specs : List EntitySpec) : String :=
  Sha256.hexDigest (Value.array (specs.map EntitySpec.toJson)).compact

end DataVault.Entity
