/-
DataVault.Logging.Settings — how a run logs.

The environment says where log lines go and how they look. In production
they are JSON and start at `info`, elsewhere they are for people and start
at `debug`. Standard output is left to the statements of a dry run.
-/
import DataVault.Text.Control

namespace DataVault.Logging

open DataVault.Text

inductive LogFormat where
  | json
  /-- For people. -/
  | pretty
  deriving DecidableEq

inductive LogOutput where
  | stdout
  | stderr
  /-- A new file each day. -/
  | file
  deriving DecidableEq

def LogFormat.name : LogFormat → String
  | json => "Json"
  | pretty => "Pretty"

def LogOutput.name : LogOutput → String
  | stdout => "Stdout"
  | stderr => "Stderr"
  | file => "File"

/-- The format with this name, in any case. -/
def LogFormat.ofName? (s : String) : Option LogFormat :=
  [("json", json), ("pretty", pretty)].lookup (lower s)

/-- The output with this name, in any case. -/
def LogOutput.ofName? (s : String) : Option LogOutput :=
  [("stdout", stdout), ("stderr", stderr), ("file", file)].lookup (lower s)

structure LogSettings where
  format : LogFormat
  output : LogOutput
  directory : String
  filePrefix : String
  service : String
  version : String
  environment : String
  /-- A new file is started each day. -/
  rotates : Bool
  deriving DecidableEq

/-- The two names of production. -/
def isProduction (environment : String) : Bool :=
  environment == "production" || environment == "prod"

namespace LogSettings

/-- The settings where nothing but the environment's name is known. -/
def standard (environment : String) : LogSettings where
  format := if isProduction environment then .json else .pretty
  output := .stderr
  directory := "logs"
  filePrefix := "vault-sqlx"
  service := "vault-sqlx"
  version := "0.9.0"
  environment
  rotates := true

/-- The settings that variables make. A name that is not known changes
nothing. -/
def ofEnvironment (env : List (String × String)) : LogSettings :=
  let name := ((env.lookup "ENVIRONMENT").or (env.lookup "ENV")).getD "development"
  let s := standard name
  { s with
    format := ((env.lookup "LOG_FORMAT").bind LogFormat.ofName?).getD s.format
    output := ((env.lookup "LOG_OUTPUT").bind LogOutput.ofName?).getD s.output
    directory := (env.lookup "LOG_DIR").getD s.directory }

/-- The least level that is logged. -/
def level (s : LogSettings) : String := if isProduction s.environment then "info" else "debug"

end LogSettings

end DataVault.Logging
