/-
DataVault.Generate.Settings — the settings that shape generated SQL.

Every choice that the generators leave open is a field of `Settings`: the
schema, how keys are digested, the dialect, how loads are timed, how tables
are built, and the names of the columns that a vault adds to the declared
ones. `Settings.validate` refuses the settings under which the output would
be ambiguous. `Settings.fingerprint` is the hash of the settings' canonical
JSON, with the fields in a fixed order.
-/
import DataVault.Digest.KeyEncoding
import DataVault.Json.Value

namespace DataVault.Generate

open DataVault.Digest DataVault.Json DataVault.Sql DataVault.Text

/-! ## 1. Choices -/

/-- The type of the load column. -/
inductive LoadPrecision where
  | timestamp
  | date
  deriving DecidableEq

namespace LoadPrecision

def name : LoadPrecision → String
  | timestamp => "timestamp"
  | date => "date"

def ofName? (s : String) : Option LoadPrecision := [timestamp, date].find? (·.name == s)

end LoadPrecision

/-- How a table is built: anew each time, or by appending. -/
inductive Materialization where
  | table
  | incremental
  deriving DecidableEq

namespace Materialization

def name : Materialization → String
  | table => "table"
  | incremental => "incremental"

def ofName? (s : String) : Option Materialization := [table, incremental].find? (·.name == s)

end Materialization

/-- The columns that a vault adds to the declared fields. -/
structure VaultColumns where
  loadTime : Ident
  recordSource : Ident
  hashDiff : Ident
  isCurrent : Ident
  effectiveStart : Ident
  effectiveEnd : Ident
  deriving DecidableEq

namespace VaultColumns

/-- The names used where none are configured. -/
def standard : VaultColumns where
  loadTime := ⟨"load_dts", by decide, by decide⟩
  recordSource := ⟨"record_source", by decide, by decide⟩
  hashDiff := ⟨"hash_diff", by decide, by decide⟩
  isCurrent := ⟨"is_current", by decide, by decide⟩
  effectiveStart := ⟨"effective_start_date", by decide, by decide⟩
  effectiveEnd := ⟨"effective_end_date", by decide, by decide⟩

/-- All six names. -/
def all (c : VaultColumns) : List Ident :=
  [c.loadTime, c.recordSource, c.hashDiff, c.isCurrent, c.effectiveStart, c.effectiveEnd]

end VaultColumns

/-- What shapes the generated SQL. -/
structure Settings where
  /-- The schema of generated tables. -/
  schema : Ident
  keyEncoding : KeyEncoding
  /-- Satellites get a merge into their history besides the snapshot. -/
  emitHistory : Bool
  dialect : Dialect
  loadPrecision : LoadPrecision
  materialization : Materialization
  partitionByLoad : Bool
  clusterByKey : Bool
  /-- Written into the record source column; the source table's name where
  it is missing. -/
  recordSource : Option String
  columns : VaultColumns
  deriving DecidableEq

/-- The settings of a run that configures nothing. -/
def Settings.standard : Settings where
  schema := ⟨"raw_vault", by decide, by decide⟩
  keyEncoding := KeyEncoding.standard
  emitHistory := true
  dialect := .bigQuery
  loadPrecision := .timestamp
  materialization := .table
  partitionByLoad := true
  clusterByKey := true
  recordSource := none
  columns := VaultColumns.standard

/-! ## 2. Validity -/

/-- Why settings are refused. -/
inductive SettingsError where
  | emptyDelimiter
  | blankRecordSource
  | repeatedColumn (name : Ident)
  deriving DecidableEq

def SettingsError.message : SettingsError → String
  | emptyDelimiter =>
      "key delimiter cannot be empty; undelimited key concatenation collides across key boundaries"
  | blankRecordSource => "record source override cannot be blank"
  | repeatedColumn name =>
      "vault column name '" ++ name.text ++ "' is configured more than once"

/-- The first name of the list that a later one repeats, in any case. -/
def repeatedLater? : List Ident → Option Ident
  | [] => none
  | name :: rest => if Ident.among rest name then some name else repeatedLater? rest

/-- An empty separator joins values without a boundary. -/
def checkEncoding : KeyEncoding → Except SettingsError Unit
  | .delimited separator => if separator.isEmpty then .error .emptyDelimiter else .ok ()
  | .lengthPrefixed => .ok ()

def checkRecordSource : Option String → Except SettingsError Unit
  | some tag => if (trim tag).isEmpty then .error .blankRecordSource else .ok ()
  | none => .ok ()

def VaultColumns.check (c : VaultColumns) : Except SettingsError Unit :=
  match repeatedLater? c.all with
  | some name => .error (.repeatedColumn name)
  | none => .ok ()

/-- Checks the encoding, the record source and the column names, in this
order. -/
def Settings.validate (s : Settings) : Except SettingsError Unit := do
  checkEncoding s.keyEncoding
  checkRecordSource s.recordSource
  s.columns.check

/-! ## 3. Canonical form -/

def encodingJson : KeyEncoding → Value
  | .delimited separator =>
      .object [("strategy", .string "delimited"), ("separator", .string separator)]
  | .lengthPrefixed => .object [("strategy", .string "length_prefixed")]

def VaultColumns.toJson (c : VaultColumns) : Value :=
  .object [
    ("load_dts", .string c.loadTime.text),
    ("record_source", .string c.recordSource.text),
    ("hash_diff", .string c.hashDiff.text),
    ("is_current", .string c.isCurrent.text),
    ("effective_start_date", .string c.effectiveStart.text),
    ("effective_end_date", .string c.effectiveEnd.text)]

/-- The settings as JSON. -/
def Settings.toJson (s : Settings) : Value :=
  .object [
    ("schema_name", .string s.schema.text),
    ("key_encoding", encodingJson s.keyEncoding),
    ("emit_scd2", .bool s.emitHistory),
    ("dialect", .string s.dialect.name),
    ("load_precision", .string s.loadPrecision.name),
    ("materialization", .string s.materialization.name),
    ("partition_by_load", .bool s.partitionByLoad),
    ("cluster_by_business_key", .bool s.clusterByKey),
    ("record_source", .stringOrNull s.recordSource),
    ("columns", s.columns.toJson)]

/-- The hash of the canonical JSON. -/
def Settings.fingerprint (s : Settings) : String := Sha256.hexDigest s.toJson.compact

end DataVault.Generate
