/-
DataVault.Generate.SettingsDocument — settings read from a document.

A key encoding is a table whose `strategy` says which one it is, or a list
that starts with the strategy; since the strategy decides what else is
read, every value beside it has to be readable without knowing its type. In
a table the separator may be called by its position.
`Settings.override?` lays a table of settings over others.
-/
import DataVault.Document.Record
import DataVault.Document.Shape
import DataVault.Generate.Settings

namespace DataVault.Generate

open DataVault.Digest DataVault.Document DataVault.Sql

/-- An identifier. -/
def ident? (n : Node) : Option Ident := n.text?.bind fun s => (Ident.parse s).toOption

/-- One of several names. -/
def chosen? {α : Type} (form : Notation) (ofName? : String → Option α) (n : Node) : Option α :=
  (n.choice? form).bind ofName?

/-- The encoding of a strategy; `separator` is what a delimited one reads. -/
def encodingOf? (strategy : String) (separator : Option String) : Option KeyEncoding :=
  if strategy = "delimited" then separator.map .delimited
  else if strategy = "length_prefixed" then some .lengthPrefixed
  else none

/-- The shape of a key encoding. -/
def encodingShape : Shape := .tagged "strategy"

/-- The separator among the members of a delimited encoding, all of which
have names or positions. -/
def separator? (members : List (Key × Node)) : Option String :=
  if members.any (·.1 = .other) then none
  else
    match members.filter fun m => m.1 = .text "separator" ∨ m.1 = .position 0 with
    | [(_, value)] => value.freeText?
    | _ => none

/-- A key encoding. -/
def encoding? : Node → Option KeyEncoding
  | .table members => do
      let strategy ← (← fieldValue? members ["strategy"]).bind Node.text?
      let others := members.filter (·.1 != .text "strategy")
      if Node.membersReadable others then encodingOf? strategy (separator? others) else none
  | .list (strategy :: values) => do
      let strategy ← strategy.text?
      match Node.allReadable values, values with
      | true, [] => if strategy = "delimited" then none else encodingOf? strategy none
      | true, [separator] =>
          if strategy = "delimited" then separator.freeText?.map .delimited else none
      | _, _ => none
  | _ => none

/-- The fields of the vault columns. -/
def VaultColumns.fields : List (List String) :=
  [["load_dts"], ["record_source"], ["hash_diff"], ["is_current"], ["effective_start_date"],
   ["effective_end_date"]]

/-- The shape of the vault columns. -/
def VaultColumns.shape : Shape := .fields fields (fields.map fun _ => .single)

/-- The vault columns; a missing one keeps its standard name. -/
def columns? (form : Notation) (n : Node) : Option VaultColumns := do
  let r ← n.record? form VaultColumns.fields
  let standard := VaultColumns.standard
  some {
    loadTime := ← r.orElse 0 standard.loadTime ident?
    recordSource := ← r.orElse 1 standard.recordSource ident?
    hashDiff := ← r.orElse 2 standard.hashDiff ident?
    isCurrent := ← r.orElse 3 standard.isCurrent ident?
    effectiveStart := ← r.orElse 4 standard.effectiveStart ident?
    effectiveEnd := ← r.orElse 5 standard.effectiveEnd ident? }

/-- The fields of the settings. -/
def Settings.fields : List (List String) :=
  [["schema_name"], ["key_encoding"], ["emit_scd2"], ["dialect"], ["load_precision"],
   ["materialization"], ["partition_by_load"], ["cluster_by_business_key"], ["record_source"],
   ["columns"]]

/-- The shape of settings. -/
def Settings.shape : Shape :=
  .fields fields
    [.single, encodingShape, .single, .single, .single, .single, .single, .single, .single,
     VaultColumns.shape]

/-- The settings with those that a document gives in their place. Only the
record source may be given as null. -/
def Settings.override? (form : Notation) (s : Settings) (n : Node) : Option Settings := do
  let r ← n.record? form Settings.fields
  some {
    schema := ← r.orElse 0 s.schema ident?
    keyEncoding := ← r.orElse 1 s.keyEncoding encoding?
    emitHistory := ← r.orElse 2 s.emitHistory Node.bool?
    dialect := ← r.orElse 3 s.dialect (chosen? form Dialect.ofName?)
    loadPrecision := ← r.orElse 4 s.loadPrecision (chosen? form LoadPrecision.ofName?)
    materialization := ← r.orElse 5 s.materialization (chosen? form Materialization.ofName?)
    partitionByLoad := ← r.orElse 6 s.partitionByLoad Node.bool?
    clusterByKey := ← r.orElse 7 s.clusterByKey Node.bool?
    recordSource := ← r.orElse 8 s.recordSource (Record.optionalOf Node.text?)
    columns := ← r.orElse 9 s.columns (columns? form) }

end DataVault.Generate
