/-
DataVault.CommandLine.Args — the arguments of the command.

An option takes a value, either as the next argument or after an equals
sign; a flag takes none. The value of an option is checked when the next
option, flag or end arrives, so an argument that is not known is reported
before a bad value in front of it. What the arguments leave open is taken
from the environment, and a key delimiter excludes length prefixes wherever
the two come from.
-/
import DataVault.Artifact.Written
import DataVault.Sql.Dialect

namespace DataVault.CommandLine

open DataVault.Artifact DataVault.Sql

/-! ## 1. Arguments -/

/-- An option with a value. -/
inductive ValueOption where
  | config
  | metadata
  | outputDirectory
  | schema
  | dialect
  | keyDelimiter
  | format
  | listSeparator
  deriving DecidableEq

/-- An option without a value. -/
inductive Flag where
  | lengthPrefixed
  | noHistory
  | parallel
  | dryRun
  | noReceipt
  | pruneStale
  | strict
  deriving DecidableEq

/-- What an argument may name. -/
inductive Name where
  | value (o : ValueOption)
  | flag (f : Flag)
  | help
  | version
  deriving DecidableEq

/-- The names, without the dashes in front, in the order in which the
environment is read. -/
def names : List (String × Name) :=
  [("config", .value .config), ("metadata", .value .metadata),
   ("output-dir", .value .outputDirectory), ("schema", .value .schema),
   ("dialect", .value .dialect), ("key-delimiter", .value .keyDelimiter),
   ("length-prefixed", .flag .lengthPrefixed), ("no-scd2", .flag .noHistory),
   ("format", .value .format), ("list-separator", .value .listSeparator),
   ("parallel", .flag .parallel), ("dry-run", .flag .dryRun), ("no-receipt", .flag .noReceipt),
   ("prune-stale", .flag .pruneStale), ("strict", .flag .strict), ("help", .help),
   ("version", .version)]

/-- The variables of the environment, in the same order. -/
def variableNames : List (String × Name) :=
  [("VAULT_SQLX_METADATA", .value .metadata), ("VAULT_SQLX_OUTPUT_DIR", .value .outputDirectory),
   ("VAULT_SQLX_SCHEMA", .value .schema), ("VAULT_SQLX_DIALECT", .value .dialect),
   ("VAULT_SQLX_KEY_DELIMITER", .value .keyDelimiter),
   ("VAULT_SQLX_LENGTH_PREFIXED", .flag .lengthPrefixed),
   ("VAULT_SQLX_NO_SCD2", .flag .noHistory), ("VAULT_SQLX_FORMAT", .value .format),
   ("VAULT_SQLX_LIST_SEPARATOR", .value .listSeparator),
   ("VAULT_SQLX_PARALLEL", .flag .parallel), ("VAULT_SQLX_PRUNE_STALE", .flag .pruneStale),
   ("VAULT_SQLX_STRICT", .flag .strict)]

/-- Why arguments are not acted upon. -/
inductive ArgError where
  | displayHelp
  | displayVersion
  | unknownArgument
  | invalidValue
  | valueValidation
  | tooManyValues
  | argumentConflict
  deriving DecidableEq

def ArgError.name : ArgError → String
  | displayHelp => "DisplayHelp"
  | displayVersion => "DisplayVersion"
  | unknownArgument => "UnknownArgument"
  | invalidValue => "InvalidValue"
  | valueValidation => "ValueValidation"
  | tooManyValues => "TooManyValues"
  | argumentConflict => "ArgumentConflict"

/-- Asking for help or the version is no mistake. -/
def ArgError.exitCode : ArgError → Nat
  | displayHelp | displayVersion => 0
  | _ => 2

/-! ## 2. Values -/

/-- The value is one that the option takes. -/
def checkValue (o : ValueOption) (value : String) : Except ArgError Unit :=
  match o with
  | .config | .metadata | .outputDirectory =>
      if value.isEmpty then .error .invalidValue else .ok ()
  | .schema | .keyDelimiter => .ok ()
  | .dialect => if (Dialect.ofName? value).isSome then .ok () else .error .invalidValue
  | .format => if (OutputFormat.ofName? value).isSome then .ok () else .error .invalidValue
  | .listSeparator => if value.length = 1 then .ok () else .error .valueValidation

/-- Options with their values, and flags that are on or off. -/
structure Given where
  values : List (ValueOption × String)
  flags : List (Flag × Bool)

namespace Given

def empty : Given := ⟨[], []⟩

def hasValue (g : Given) (o : ValueOption) : Bool := (g.values.lookup o).isSome

def hasFlag (g : Given) (f : Flag) : Bool := (g.flags.lookup f).isSome

/-- Adds a value; an option may be given once. -/
def addValue (g : Given) (o : ValueOption) (value : String) : Except ArgError Given :=
  if g.hasValue o then .error .argumentConflict
  else (checkValue o value).map fun _ => { g with values := g.values ++ [(o, value)] }

/-- Adds a flag; a flag may be given once. -/
def addFlag (g : Given) (f : Flag) (on : Bool) : Except ArgError Given :=
  if g.hasFlag f then .error .argumentConflict
  else .ok { g with flags := g.flags ++ [(f, on)] }

end Given

/-! ## 3. Reading arguments -/

/-- An option that has arrived and is not settled yet, with its value if that
has arrived. -/
structure Reader where
  given : Given
  pending : Option (ValueOption × Option String)

/-- Settles the pending option. -/
def Reader.settle (r : Reader) : Except ArgError Given :=
  match r.pending with
  | none => .ok r.given
  | some (_, none) => .error .invalidValue
  | some (o, some value) => r.given.addValue o value

/-- An argument with two dashes: its name, and the value after an equals
sign. -/
def splitLong (cs : List Char) : String × Option String :=
  let name := cs.takeWhile (· != '=')
  match cs.drop name.length with
  | _ :: value => (String.ofList name, some (String.ofList value))
  | [] => (String.ofList name, none)

/-- Acts on a name. -/
def Reader.actOn (r : Reader) (name : Name) (value : Option String) : Except ArgError Reader :=
  match name, value with
  | .value o, some v => do
      let given ← (← r.settle).addValue o v
      pure ⟨given, none⟩
  | .value o, none => do pure ⟨← r.settle, some (o, none)⟩
  | _, some _ => .error .tooManyValues
  | .flag f, none => do
      let given ← (← r.settle).addFlag f true
      pure ⟨given, none⟩
  | .help, none => do
      let _ ← r.settle
      .error .displayHelp
  | .version, none => do
      let _ ← r.settle
      .error .displayVersion

/-- The name that the first letter after one dash stands for. -/
def shortName? : Char → Option Name
  | 'h' => some .help
  | 'V' => some .version
  | _ => none

/-- Reads one argument in front of a lone `--`. -/
def Reader.read (r : Reader) (arg : String) : Except ArgError Reader :=
  match arg.toList with
  | '-' :: '-' :: cs =>
      let (name, value) := splitLong cs
      match names.lookup name with
      | some n => r.actOn n value
      | none => .error .unknownArgument
  | '-' :: c :: _ =>
      match shortName? c with
      | some n => r.actOn n none
      | none => .error .unknownArgument
  | _ =>
      match r.pending with
      | some (o, none) => .ok { r with pending := some (o, some arg) }
      | _ => .error .unknownArgument

/-- Reads all arguments. Nothing may follow a lone `--`. -/
def Reader.readAll (r : Reader) : List String → Except ArgError Given
  | [] => r.settle
  | arg :: rest =>
      if arg = "--" then if rest.isEmpty then r.settle else .error .unknownArgument
      else
        match r.read arg with
        | .ok r => r.readAll rest
        | .error e => .error e

/-! ## 4. The environment -/

/-- A flag in the environment is on or off. -/
def flagValue? (value : String) : Option Bool :=
  if value = "true" then some true else if value = "false" then some false else none

/-- Adds what a variable says, unless the arguments said it. -/
def Given.addVariable (g : Given) (name : Name) (value : String) : Except ArgError Given :=
  match name with
  | .value o => if g.hasValue o then .ok g else g.addValue o value
  | .flag f =>
      if g.hasFlag f then .ok g
      else
        match flagValue? value with
        | some on => g.addFlag f on
        | none => .error .invalidValue
  | .help | .version => .ok g

/-- Adds what the environment says. -/
def Given.addEnvironment (env : List (String × String)) (g : Given) : Except ArgError Given :=
  variableNames.foldlM
    (fun g (label, name) =>
      match env.lookup label with
      | some value => g.addVariable name value
      | none => .ok g)
    g

/-! ## 5. All together -/

/-- The arguments of a command, with what the environment adds. -/
structure Args where
  config : Option String
  metadata : Option String
  outputDirectory : Option String
  schema : Option String
  dialect : Option Dialect
  keyDelimiter : Option String
  lengthPrefixed : Bool
  noHistory : Bool
  format : Option OutputFormat
  listSeparator : Option Char
  parallel : Bool
  dryRun : Bool
  noReceipt : Bool
  pruneStale : Bool
  strict : Bool
  deriving DecidableEq

/-- The arguments that values and flags amount to. -/
def Given.toArgs (g : Given) : Args :=
  let value (o : ValueOption) : Option String := g.values.lookup o
  let isOn (f : Flag) : Bool := (g.flags.lookup f).getD false
  { config := value .config
    metadata := value .metadata
    outputDirectory := value .outputDirectory
    schema := value .schema
    dialect := (value .dialect).bind Dialect.ofName?
    keyDelimiter := value .keyDelimiter
    lengthPrefixed := isOn .lengthPrefixed
    noHistory := isOn .noHistory
    format := (value .format).bind OutputFormat.ofName?
    listSeparator := (value .listSeparator).bind fun s => s.toList.head?
    parallel := isOn .parallel
    dryRun := isOn .dryRun
    noReceipt := isOn .noReceipt
    pruneStale := isOn .pruneStale
    strict := isOn .strict }

/-- A key delimiter and length prefixes exclude each other, even where the
latter are switched off. -/
def Given.checkConflict (g : Given) : Except ArgError Unit :=
  if g.hasValue .keyDelimiter && g.hasFlag .lengthPrefixed then .error .argumentConflict else .ok ()

/-- Reads the arguments and the environment. -/
def Args.parse (env : List (String × String)) (args : List String) : Except ArgError Args := do
  let given ← (Reader.mk .empty none).readAll args
  let given ← given.addEnvironment env
  given.checkConflict
  pure given.toArgs

end DataVault.CommandLine
