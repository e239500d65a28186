/-
DataVault.CommandLine.Program — the command as a function.

Given a pool of workers, the environment, the arguments, the time and the
files, the command has an exit code, two texts to print, and new files.
`Main` only reads the files that `lookedAt` names, calls `execute` and
carries the outcome out.
-/
import DataVault.CommandLine.Config
import DataVault.Compile.Run

namespace DataVault.CommandLine

open DataVault.Artifact DataVault.Compile DataVault.Entity DataVault.Files
open DataVault.Generate (Pool)

/-- What the command does. -/
structure Outcome where
  exitCode : Nat
  stdout : String
  stderr : String
  tree : Tree

/-- The command's own name. -/
def commandName : String := "vault-sqlx"

def versionLine : String := commandName ++ " " ++ currentVersion ++ "\n"

/-- The names of all options. -/
def usageLine : String :=
  "Usage: " ++ commandName ++ String.join (names.map fun (name, _) => " [--" ++ name ++ "]") ++ "\n"

/-- What is printed about arguments that are not acted upon. -/
def argOutcome (e : ArgError) (t : Tree) : Outcome :=
  match e with
  | .displayHelp => ⟨e.exitCode, usageLine, "", t⟩
  | .displayVersion => ⟨e.exitCode, versionLine, "", t⟩
  | _ => ⟨e.exitCode, "", "error: " ++ e.name ++ "\n\n" ++ usageLine, t⟩

/-- A failure, with its reasons below it. -/
def failureText (f : Failure) : String :=
  let reasons := f.messages.drop 1
  let causes :=
    if reasons.isEmpty then ""
    else "\nCaused by:\n" ++ String.join (reasons.map fun m => "    " ++ m ++ "\n")
  "Error: " ++ f.headline ++ "\n" ++ causes

/-- The artifacts of a dry run. -/
def artifactsText (c : RunConfig) (s : Summary) : String :=
  if c.dryRun then String.join (s.artifacts.map fun a => a.written c.format ++ "\n") else ""

/-- What a run reports. -/
def summaryText (s : Summary) : String :=
  toString s.artifacts.length ++ " artifact(s) generated, " ++ toString s.rejections.length ++
    " entit(ies) rejected, receipt " ++ s.receipt.id ++ "\n" ++
    (if s.isClean then "" else reportText s.rejections) ++
    String.join (s.report.stale.map fun path => "stale: " ++ path ++ "\n")

/-- A run is a success unless it is strict and rejected something. -/
def exitCodeOf (c : RunConfig) (s : Summary) : Nat := if c.strict && !s.isClean then 1 else 0

/-- Runs a configuration. -/
def executeConfig (pool : Pool) (c : RunConfig) (now : String) (t : Tree) : Outcome :=
  match c.run pool now t with
  | (.ok s, t) => ⟨exitCodeOf c s, artifactsText c s, summaryText s, t⟩
  | (.error f, t) => ⟨1, "", failureText f, t⟩

/-- Runs the command. -/
def execute (pool : Pool) (env : List (String × String)) (args : List String) (now : String)
    (t : Tree) : Outcome :=
  match Args.parse env args with
  | .error e => argOutcome e t
  | .ok args =>
      match resolve args t with
      | .error f => ⟨1, "", failureText f, t⟩
      | .ok c => executeConfig pool c now t

/-- The paths that the command looks at, as far as the tree tells: what is
read at one of them may bring more. -/
def lookedAt (env : List (String × String)) (args : List String) (t : Tree) : List String :=
  match Args.parse env args with
  | .error _ => []
  | .ok args =>
      args.config.toList ++
        match resolve args t with
        | .ok c => c.lookedAt t
        | .error _ => []

end DataVault.CommandLine
