/-
DataVault.Compile.RunConfig — what a run is told to do.

A run reads one metadata file and writes into one output directory. Its
configuration is valid if its settings are, and if the separator of list
cells can stand neither in an identifier nor at the end of an item as a
blank.
-/
import DataVault.Artifact.Written
import DataVault.Failure
import DataVault.Generate.Settings
import DataVault.Text.Alphanumeric
import DataVault.Text.Blank
import DataVault.Text.Quoted

namespace DataVault.Compile

open DataVault.Artifact DataVault.Generate DataVault.Text

structure RunConfig where
  metadata : String
  outputDirectory : String
  settings : Settings
  format : OutputFormat
  /-- Stands between the items in a list cell. -/
  listSeparator : Char
  /-- Entities are generated on a pool of workers; the outcome is the same. -/
  parallel : Bool
  /-- Nothing is written. -/
  dryRun : Bool
  writeReceipt : Bool
  pruneStale : Bool
  /-- Rejections make the command fail. -/
  strict : Bool
  deriving DecidableEq

namespace RunConfig

/-- The output directory of a run that names none. -/
def standardOutput : String := "definitions"

/-- The list separator of a run that names none. -/
def standardSeparator : Char := '|'

/-- The configuration of a run that names its two places only. -/
def standard (metadata outputDirectory : String) : RunConfig where
  metadata
  outputDirectory
  settings := Settings.standard
  format := .sqlx
  listSeparator := standardSeparator
  parallel := false
  dryRun := false
  writeReceipt := true
  pruneStale := false
  strict := false

/-- A list separator may not occur in identifiers, nor be a blank. -/
def checkSeparator (separator : Char) : Except Failure Unit :=
  if isAlphanumeric separator ∨ separator = '_' then
    .error (.of ("list separator " ++ quotedChar separator ++ " would split identifiers"))
  else if isBlank separator then .error (.of "list separator cannot be whitespace")
  else .ok ()

/-- Checks the settings, then the list separator. -/
def validate (c : RunConfig) : Except Failure Unit := do
  c.settings.validate.mapError fun e => Failure.of e.message
  checkSeparator c.listSeparator

end RunConfig

end DataVault.Compile
