/-
DataVault.Generate.Basic — what the three generators share.

A generator is a function from a specification and the settings to the
artifacts of one entity, or to the error that refuses the entity. Here are
the expressions, the checks and the header that all generators use.
-/
import DataVault.Artifact.Basic
import DataVault.Generate.Settings
import DataVault.Sql.Query

namespace DataVault.Generate

open DataVault.Artifact DataVault.Digest DataVault.Entity DataVault.Sql

/-! ## 1. Expressions -/

namespace Settings

/-- The clock that fills the load column. -/
def loadExpr (s : Settings) : Expr :=
  match s.loadPrecision with
  | .timestamp => .currentTimestamp
  | .date => .currentDate

/-- The constant that fills the record source column. -/
def recordSourceExpr (s : Settings) (spec : EntitySpec) : Expr :=
  .str (s.recordSource.getD spec.source.dotted)

/-- A table of the vault. -/
def vaultTable (s : Settings) (name : Ident) : TableRef := .inSchema s.schema name

/-- The digest of columns under the configured encoding. -/
def digestOf (s : Settings) (qualifier : Option Ident) (columns : List Ident) : Expr :=
  s.keyEncoding.digestExpr qualifier columns

/-- The projection of the load column and the record source. -/
def loadItems (s : Settings) (spec : EntitySpec) : List SelectItem :=
  [.aliased s.loadExpr s.columns.loadTime,
   .aliased (s.recordSourceExpr spec) s.columns.recordSource]

end Settings

/-- The projection of fields under other names. -/
def renamedItems (fields names : List Ident) : List SelectItem :=
  List.zipWith (fun field name => .aliased (.field field) name) fields names

/-! ## 2. Checks -/

/-- The generator was given an entity of its kind. -/
def expectKind (spec : EntitySpec) (expected : EntityKind) : Except CompileError Unit :=
  if spec.kind = expected then .ok ()
  else .error (spec.reject (.kindMismatch expected spec.kind))

/-- No declared field has the name of a vault column or of a generated
column; the first one that has is reported. -/
def checkReserved (s : Settings) (spec : EntitySpec) (generated : List Ident) :
    Except CompileError Unit :=
  match spec.fields.find? (Ident.among (s.columns.all ++ generated)) with
  | some field => .error (spec.reject (.reservedColumn field.text))
  | none => .ok ()

/-! ## 3. Headers -/

/-- The greatest number of columns that a table is clustered by. -/
def maxClusterColumns : Nat := 4

/-- The expression that a table is partitioned by. -/
def Settings.partitionText (s : Settings) : String :=
  match s.loadPrecision with
  | .timestamp => "DATE(" ++ s.columns.loadTime.text ++ ")"
  | .date => s.columns.loadTime.text

/-- The header of an artifact. Partitions and clusters are for tables only. -/
def Settings.header (s : Settings) (spec : EntitySpec) (kind : ArtifactKind) (cluster : List Ident)
    (extraTags : List String) (description : String) (columns : List (String × String)) :
    Header :=
  let isTable := kind == .table
  { schema := s.schema.text
    incremental := isTable && s.materialization == .incremental
    tags := [spec.kind.name, "datavault"] ++ extraTags
    description
    partitionBy := if isTable && s.partitionByLoad then some s.partitionText else none
    clusterBy :=
      if isTable && s.clusterByKey then (cluster.take maxClusterColumns).map Ident.text else []
    columns := ColumnDocs.ofList columns }

/-- Fields with commas between them. -/
def fieldList (fields : List Ident) : String := Ident.textsJoined ", " fields

/-- The descriptions of business key columns. -/
def businessKeyDocs (fields names : List Ident) : List (String × String) :=
  List.zipWith (fun field name => (name.text, "Business key " ++ field.text)) fields names

/-- The descriptions of the load column and the record source. -/
def Settings.loadDocs (s : Settings) : List (String × String) :=
  [(s.columns.loadTime.text, "Load time"), (s.columns.recordSource.text, "Source system")]

end DataVault.Generate
