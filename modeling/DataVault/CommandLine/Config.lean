/-
DataVault.CommandLine.Config — the configuration of a run.

A run is configured by arguments, by a configuration file, and by standard
values, in this order of precedence. A configuration file is a table of
optional fields in JSON, TOML or YAML. The result is validated as a whole.
-/
import DataVault.CommandLine.Args
import DataVault.Compile.RunConfig
import DataVault.Files.Tree
import DataVault.Generate.SettingsDocument
import DataVault.Metadata.Source

namespace DataVault.CommandLine

open DataVault.Artifact DataVault.Compile DataVault.Digest DataVault.Document DataVault.Files
open DataVault.Generate DataVault.Metadata DataVault.Sql DataVault.Text

/-! ## 1. Configuration files -/

/-- The settings in a file, all optional. -/
structure FileSettings where
  schema : Option String := none
  keyEncoding : Option KeyEncoding := none
  emitHistory : Option Bool := none
  dialect : Option Dialect := none
  loadPrecision : Option LoadPrecision := none
  materialization : Option Materialization := none
  partitionByLoad : Option Bool := none
  clusterByKey : Option Bool := none
  recordSource : Option String := none
  columns : Option VaultColumns := none

/-- What a file says, all optional. -/
structure FileConfig where
  metadata : Option String := none
  outputDirectory : Option String := none
  format : Option OutputFormat := none
  listSeparator : Option Char := none
  parallel : Option Bool := none
  dryRun : Option Bool := none
  writeReceipt : Option Bool := none
  pruneStale : Option Bool := none
  strict : Option Bool := none
  settings : Option FileSettings := none

/-- The settings at a node. -/
def FileSettings.ofNode? (form : Notation) (n : Node) : Option FileSettings := do
  let r ← n.record? form Settings.fields
  some {
    schema := ← r.optional 0 Node.text?
    keyEncoding := ← r.optional 1 encoding?
    emitHistory := ← r.optional 2 Node.bool?
    dialect := ← r.optional 3 (chosen? form Dialect.ofName?)
    loadPrecision := ← r.optional 4 (chosen? form LoadPrecision.ofName?)
    materialization := ← r.optional 5 (chosen? form Materialization.ofName?)
    partitionByLoad := ← r.optional 6 Node.bool?
    clusterByKey := ← r.optional 7 Node.bool?
    recordSource := ← r.optional 8 Node.text?
    columns := ← r.optional 9 (columns? form) }

/-- The fields of a configuration file. -/
def FileConfig.fields : List (List String) :=
  [["metadata"], ["output_dir"], ["format"], ["list_separator"], ["parallel"], ["dry_run"],
   ["write_receipt"], ["prune_stale"], ["strict"], ["generation"]]

/-- The shape of a configuration file. -/
def FileConfig.shape : Shape :=
  .fields fields
    [.single, .single, .single, .single, .single, .single, .single, .single, .single,
     Settings.shape]

/-- The configuration at a node. -/
def FileConfig.ofNode? (form : Notation) (n : Node) : Option FileConfig := do
  let r ← n.record? form FileConfig.fields
  some {
    metadata := ← r.optional 0 Node.text?
    outputDirectory := ← r.optional 1 Node.text?
    format := ← r.optional 2 (chosen? form OutputFormat.ofName?)
    listSeparator := ← r.optional 3 Node.char?
    parallel := ← r.optional 4 Node.bool?
    dryRun := ← r.optional 5 Node.bool?
    writeReceipt := ← r.optional 6 Node.bool?
    pruneStale := ← r.optional 7 Node.bool?
    strict := ← r.optional 8 Node.bool?
    settings := ← r.optional 9 (FileSettings.ofNode? form) }

/-- Reads a configuration file; its extension names the notation. -/
def FileConfig.load (t : Tree) (path : String) : Except Failure FileConfig :=
  if !t.exists? path then .error (.of ("config file " ++ quoted path ++ " does not exist"))
  else
    match t.read? path with
    | none => .error (.because .io ("failed to read config file " ++ quoted path))
    | some text =>
        let extension := Path.lowerExtension path
        match notationOf? extension with
        | none => .error (.of ("unsupported config extension: " ++ extension))
        | some form =>
            match (readDocument? FileConfig.shape form text).bind (FileConfig.ofNode? form) with
            | some c => .ok c
            | none =>
                .error (.because (notationCause form)
                  ("failed to parse " ++ notationLabel form ++ " config " ++ quoted path))

/-! ## 2. Key delimiters -/

/-- Why a written key delimiter is refused. `raw` is the delimiter as it was
written. -/
inductive DelimiterError where
  | invalidDigits (raw : String)
  | noDigits (raw : String)
  | unsupportedEscape (letter : Char) (raw : String)
  | danglingBackslash (raw : String)
  | empty
  deriving DecidableEq

def DelimiterError.messages : DelimiterError → List String
  | invalidDigits raw =>
      ["invalid \\x escape in key delimiter " ++ quoted raw, "invalid digit found in string"]
  | noDigits raw =>
      ["invalid \\x escape in key delimiter " ++ quoted raw,
       "cannot parse integer from empty string"]
  | unsupportedEscape letter raw =>
      ["unsupported escape \\" ++ letter.toString ++ " in key delimiter " ++ quoted raw]
  | danglingBackslash raw => ["dangling backslash in key delimiter " ++ quoted raw]
  | empty => ["key delimiter cannot be empty"]

/-- The number that up to two hexadecimal digits write; a plus sign may stand
in front of a digit. -/
def octet? (raw : String) (cs : List Char) : Except DelimiterError Nat :=
  let digits :=
    match cs with
    | '+' :: d :: rest => d :: rest
    | _ => cs
  if cs.isEmpty then .error (.noDigits raw)
  else
    match hexNumber? digits with
    | some n => .ok n
    | none => .error (.invalidDigits raw)

/-- Expands `\t`, `\\` and `\x` with the two characters after it. -/
def expandEscapes (raw : String) : List Char → Except DelimiterError (List Char)
  | [] => .ok []
  | '\\' :: 't' :: rest => (expandEscapes raw rest).map ('\t' :: ·)
  | '\\' :: '\\' :: rest => (expandEscapes raw rest).map ('\\' :: ·)
  | '\\' :: 'x' :: a :: b :: rest => do
      let n ← octet? raw [a, b]
      (expandEscapes raw rest).map (Char.ofNat n :: ·)
  | '\\' :: 'x' :: rest => (octet? raw rest).map fun n => [Char.ofNat n]
  | ['\\'] => .error (.danglingBackslash raw)
  | '\\' :: letter :: _ => .error (.unsupportedEscape letter raw)
  | c :: rest => (expandEscapes raw rest).map (c :: ·)

/-- The key delimiter that a text writes. -/
def unescapeDelimiter (raw : String) : Except DelimiterError String := do
  let cs ← expandEscapes raw raw.toList
  if cs.isEmpty then .error .empty else .ok (String.ofList cs)

/-! ## 3. Precedence -/

/-- The schema, with blanks around it ignored. -/
def schemaOf : Option String → Except Failure Ident
  | none => .ok Settings.standard.schema
  | some name =>
      (Ident.parse (trim name)).mapError fun e =>
        ⟨["invalid schema name " ++ quoted name, e.message], none⟩

/-- The key encoding of the arguments, or else of the file. -/
def encodingOf (args : Args) (file : FileSettings) : Except Failure KeyEncoding :=
  if args.lengthPrefixed then .ok .lengthPrefixed
  else
    match args.keyDelimiter with
    | some raw =>
        match unescapeDelimiter raw with
        | .ok separator => .ok (.delimited separator)
        | .error e => .error ⟨e.messages, none⟩
    | none => .ok (file.keyEncoding.getD Settings.standard.keyEncoding)

/-- The settings of arguments and a file. -/
def settingsOf (args : Args) (file : FileSettings) : Except Failure Settings := do
  let standard := Settings.standard
  let schema ← schemaOf (args.schema.or file.schema)
  let keyEncoding ← encodingOf args file
  pure {
    schema
    keyEncoding
    emitHistory := !args.noHistory && file.emitHistory.getD standard.emitHistory
    dialect := (args.dialect.or file.dialect).getD standard.dialect
    loadPrecision := file.loadPrecision.getD standard.loadPrecision
    materialization := file.materialization.getD standard.materialization
    partitionByLoad := file.partitionByLoad.getD standard.partitionByLoad
    clusterByKey := file.clusterByKey.getD standard.clusterByKey
    recordSource := file.recordSource.or standard.recordSource
    columns := file.columns.getD standard.columns }

/-- What a run is told when neither arguments nor a file name its
metadata. -/
def noMetadata : Failure :=
  .of "no metadata file given (use --metadata or set \x60metadata\x60 in the config file)"

/-- The file that the arguments name, if they name one. -/
def fileConfigOf (args : Args) (t : Tree) : Except Failure FileConfig :=
  match args.config with
  | some path => FileConfig.load t path
  | none => .ok {}

/-- The configuration of a run, valid as a whole. -/
def resolve (args : Args) (t : Tree) : Except Failure RunConfig := do
  let file ← fileConfigOf args t
  let some metadata := args.metadata.or file.metadata | throw noMetadata
  let settings ← settingsOf args (file.settings.getD {})
  let config : RunConfig :=
    { metadata
      outputDirectory :=
        (args.outputDirectory.or file.outputDirectory).getD RunConfig.standardOutput
      settings
      format := (args.format.or file.format).getD .sqlx
      listSeparator :=
        (args.listSeparator.or file.listSeparator).getD RunConfig.standardSeparator
      parallel := args.parallel || file.parallel.getD false
      dryRun := args.dryRun || file.dryRun.getD false
      writeReceipt := !args.noReceipt && file.writeReceipt.getD true
      pruneStale := args.pruneStale || file.pruneStale.getD false
      strict := args.strict || file.strict.getD false }
  config.validate
  pure config

end DataVault.CommandLine
