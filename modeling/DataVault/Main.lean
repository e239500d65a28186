/-
DataVault.Main — the command.

The files that the command looks at are read into a tree, the work is done
on the tree, and what has changed in it is written back.
-/
import DataVault.CommandLine.Program
import DataVault.Files.Changes
import DataVault.Text.Timestamp
import Std.Time.DateTime.Timestamp

namespace DataVault.CommandLine

open DataVault.Files DataVault.Text

/-- A result, unless the file system refuses it. -/
def attempt {α : Type} (action : IO α) : IO (Option α) := do
  try
    return some (← action)
  catch _ => return none

/-- A file that can be opened for writing. Nothing is written. -/
def isWritable (path : String) : IO Bool := do
  return (← attempt (IO.FS.Handle.mk path .append)).isSome

/-- Adds what stands at a path. What can be opened and not read is a
directory. -/
def load (t : Tree) (path : String) : IO Tree := do
  match ← attempt (IO.FS.Handle.mk path .read) with
  | none => return t
  | some handle =>
      match ← attempt handle.readToEnd with
      | none => return (t.makeDirectory (Path.ofComponents (Path.components path))).2
      | some content =>
          let t := t.create path content
          if ← isWritable path then return t else return (t.protect? path).getD t

/-- Adds what stands at the paths that the command looks at. The
configuration file names the metadata, and the metadata name the
artifacts, so three rounds see everything. -/
def loadAll (env : List (String × String)) (args : List String) : IO Tree := do
  let round (t : Tree) : IO Tree :=
    ((lookedAt env args t).filter fun path => !t.exists? path).foldlM load t
  round (← round (← round .empty))

/-- The variables that are set. -/
def environment : IO (List (String × String)) :=
  variableNames.filterMapM fun (name, _) => do return (← IO.getEnv name).map (name, ·)

def carryOut : Change → IO Unit
  | .remove path => IO.FS.removeFile path
  | .makeDirectory path => IO.FS.createDirAll path
  | .write path content => IO.FS.writeFile path content

/-- The time of day. -/
def now : IO String := do
  return timestampText (← Std.Time.Timestamp.now).toSecondsSinceUnixEpoch.val.toNat

end DataVault.CommandLine

open DataVault.CommandLine in
/-- Runs the command on the file system. -/
def main (args : List String) : IO UInt32 := do
  let env ← environment
  let before ← loadAll env args
  let outcome := execute .single env args (← now) before
  (before.changes outcome.tree).forM carryOut
  IO.print outcome.stdout
  IO.eprint outcome.stderr
  return outcome.exitCode.toUInt32
