/-
DataVault.Output.Sink — where artifacts go.

A sink takes artifacts one by one and reports once at the end. The memory
sink keeps them in order. The file sink writes each to a file of its own in
the output directory and keeps a manifest there, the names of the files
that it wrote and of those that it still has to take care of. A file that
an earlier run wrote and this one did not is stale; it is removed on
request, and otherwise stays in the manifest, so that it is reported again.
-/
import DataVault.Artifact.Written
import DataVault.Document.Record
import DataVault.Failure
import DataVault.Files.Tree
import DataVault.Json.Reader
import DataVault.Text.Quoted

namespace DataVault.Output

open DataVault.Artifact DataVault.Document DataVault.Files DataVault.Json DataVault.Text

/-! ## 1. Sinks -/

/-- What a sink did over a run, as paths. -/
structure SinkReport where
  written : List String
  /-- Files of earlier runs that this run no longer produces. -/
  stale : List String
  pruned : List String
  deriving DecidableEq

def SinkReport.empty : SinkReport := ⟨[], [], []⟩

/-- A step that works on a state and may fail. What it did to the state
before it failed stays done. -/
abbrev Step (σ α : Type) := σ → Except Failure α × σ

namespace Step

variable {σ α β : Type}

def done (a : α) : Step σ α := fun s => (.ok a, s)

def fail (f : Failure) : Step σ α := fun s => (.error f, s)

/-- One step after another. -/
def andThen (first : Step σ α) (second : α → Step σ β) : Step σ β := fun s =>
  match first s with
  | (.ok a, s) => second a s
  | (.error f, s) => (.error f, s)

instance : Monad (Step σ) where
  pure := done
  bind := andThen

/-- A result that needs no state. -/
def ofExcept (r : Except Failure α) : Step σ α := fun s => (r, s)

/-- The step, with its failure explained. -/
def within (message : String) (step : Step σ α) : Step σ α := fun s =>
  match step s with
  | (.error f, s) => (.error (f.within message), s)
  | other => other

end Step

/-- Where artifacts go. -/
structure Sink (σ : Type) where
  persist : Artifact → Step σ Unit
  finish : Step σ SinkReport

/-- Hands all artifacts to a sink, in order. -/
def Sink.persistAll {σ : Type} (sink : Sink σ) : List Artifact → Step σ Unit
  | [] => .done ()
  | a :: rest => (sink.persist a).andThen fun _ => sink.persistAll rest

/-- Keeps the artifacts in order. -/
def memorySink : Sink (List Artifact) where
  persist a := fun kept => (.ok (), kept ++ [a])
  finish := .done .empty

/-! ## 2. Manifests -/

/-- The name of the manifest in the output directory. -/
def manifestName : String := ".vault-sqlx-manifest.json"

/-- The names in a manifest. -/
def manifestFiles? (text : String) : Option (List String) := do
  let n ← Json.read? text
  let r ← n.record? .json [["files"]]
  r.required 0 (Node.listOf? Node.text?)

/-- Sorts names and leaves out repetitions. -/
def insertName (name : String) : List String → List String
  | [] => [name]
  | other :: rest =>
      if name = other then other :: rest
      else if name < other then name :: other :: rest
      else other :: insertName name rest

def sortedNames (names : List String) : List String := names.foldr insertName []

/-- The text of a manifest. -/
def manifestText (names : List String) : String :=
  (Value.object [("files", .strings (sortedNames names))]).pretty

/-! ## 3. The file sink -/

/-- The state of a file sink. -/
structure FileState where
  tree : Tree
  /-- The names in the manifest of the run before. -/
  previous : List String
  /-- The paths that this run wrote. -/
  written : List String

/-- Where and how a file sink writes. -/
structure FileSettings where
  directory : String
  format : OutputFormat
  /-- Stale files are removed. -/
  prune : Bool

namespace FileSettings

variable (s : FileSettings)

def manifestPath : String := Path.join s.directory manifestName

/-- The path of an artifact's file. -/
def pathOf (a : Artifact) : String :=
  Path.join s.directory (a.targetName.text ++ "." ++ s.format.extension)

/-- The state before a run. A manifest that cannot be read stops the run. -/
def start (t : Tree) : Except Failure FileState :=
  let path := s.manifestPath
  if t.exists? path then
    match t.read? path with
    | none => .error (.because .io ("failed to read " ++ quoted path))
    | some text =>
        match manifestFiles? text with
        | some names => .ok ⟨t, names, []⟩
        | none => .error (.because .json ("failed to parse " ++ quoted path))
  else .ok ⟨t, [], []⟩

/-- A file of this name holds a text until it is whole. -/
def draftName : String := ".tmpXXXXXX"

/-- Why a text cannot be moved to a path. -/
def persistError (t : Tree) (path : String) : String :=
  if t.isDirectory path then "Is a directory (os error 21)" else "File name too long (os error 36)"

/-- Writes a file in the output directory, which is made if it is missing. A
read-only file and a directory are not replaced. -/
def writeFile (path content : String) : Step FileState Unit := fun st =>
  let (made, tree) := st.tree.makeDirectory s.directory
  let st := { st with tree }
  if !made then
    (.error (.because .io ("failed to create output directory " ++ quoted s.directory)), st)
  else if tree.isReadOnly path then
    (.error (.of ("file is read-only: " ++ quoted path)), st)
  else if (tree.locate? (Path.join s.directory draftName)).isNone then
    (.error ⟨[], some .io⟩, st)
  else
    match tree.write? path content with
    | some tree => (.ok (), { st with tree })
    | none =>
        (.error (.of ("failed to persist " ++ quoted path ++ ": " ++ persistError tree path)), st)

/-- Writes the file of an artifact. -/
def persist (a : Artifact) : Step FileState Unit := do
  (s.writeFile (s.pathOf a) (a.written s.format)).within
    ("failed to write artifact " ++ a.targetName.text)
  fun st => (.ok (), { st with written := st.written ++ [s.pathOf a] })

/-- The name is that of a file that the run before wrote and this one did
not. -/
def isStale (st : FileState) (name : String) : Bool :=
  Path.nameExtension? name == some s.format.extension &&
    st.previous.any (Path.same name) &&
    !st.written.any fun path => Path.fileName? path == some name

/-- The stale files that are there, by name. A file whose path is too long is
not found. Every directory of a tree can be listed; where the user may not
list the output directory, none of its files is found. -/
def staleNames (st : FileState) : List String :=
  match st.tree.locate? s.directory with
  | none => []
  | some l =>
      sortedNames (((st.tree.children l).map Prod.fst).filter fun name =>
        st.tree.isFile (Path.join s.directory name) && s.isStale st name)

/-- Removes files; the answer names those that were there to be removed. -/
def removeAll (t : Tree) : List String → List String × Tree
  | [] => ([], t)
  | path :: rest =>
      match t.remove? path with
      | some t =>
          let (removed, t) := removeAll t rest
          (path :: removed, t)
      | none => removeAll t rest

/-- The name under which a path goes into the manifest. -/
def manifestEntry? (path : String) : Option String := Path.fileName? path

/-- Finds the stale files, removes them if asked to, and writes the manifest
last. -/
def finish : Step FileState SinkReport := fun st =>
  let stale := (s.staleNames st).map (Path.join s.directory)
  let (pruned, tree) := if s.prune then removeAll st.tree stale else ([], st.tree)
  let kept := stale.filter fun path => !pruned.contains path
  let names := (st.written ++ kept).filterMap manifestEntry?
  match s.writeFile s.manifestPath (manifestText names) { st with tree } with
  | (.ok _, st) => (.ok ⟨st.written, stale, pruned⟩, st)
  | (.error f, st) => (.error f, st)

/-- The sink that writes files. -/
def sink : Sink FileState where
  persist := s.persist
  finish := s.finish

end FileSettings

end DataVault.Output
