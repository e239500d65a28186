/-
DataVault.Compile.Receipt — what a run was made from.

A receipt ties the artifacts of a run to the hashes of its input and its
settings. Its id is the hash of everything else in it that depends on them,
so two runs over the same inputs have the same id, and a receipt whose
recorded hashes were changed no longer fits its id.
-/
import DataVault.Artifact.Json
import DataVault.Failure
import DataVault.Files.Tree
import DataVault.Json.Reader
import DataVault.Text.Quoted
import DataVault.Text.Timestamp

namespace DataVault.Compile

open DataVault.Artifact DataVault.Digest DataVault.Document DataVault.Files DataVault.Generate
open DataVault.Json DataVault.Text

/-! ## 1. Receipts -/

/-- An artifact in a receipt. -/
structure ArtifactDigest where
  name : String
  kind : ArtifactKind
  bodyHash : String
  deriving DecidableEq

def ArtifactDigest.of (a : Artifact) : ArtifactDigest :=
  ⟨a.targetName.text, a.kind, Sha256.hexDigest a.body⟩

structure Receipt where
  id : String
  inputHash : String
  configHash : String
  artifacts : List ArtifactDigest
  toolVersion : String
  /-- When the receipt was made. No hash depends on it. -/
  generatedAt : String
  deriving DecidableEq

/-- The version that receipts name. -/
def currentVersion : String := "0.9.0"

namespace Receipt

/-- The text that the id is the hash of. -/
def idText (inputHash configHash : String) (artifacts : List ArtifactDigest) : String :=
  inputHash ++ "\n" ++ configHash ++
    String.join (artifacts.map fun a => "\n" ++ a.name ++ "=" ++ a.bodyHash)

/-- The id of what a receipt records. -/
def idOf (inputHash configHash : String) (artifacts : List ArtifactDigest) : String :=
  Sha256.hexDigest (idText inputHash configHash artifacts)

/-- The receipt of a run. -/
def make (inputHash configHash : String) (artifacts : List Artifact) (now : String) : Receipt :=
  let digests := artifacts.map ArtifactDigest.of
  ⟨idOf inputHash configHash digests, inputHash, configHash, digests, currentVersion, now⟩

/-- The id fits what the receipt records. -/
def verify (r : Receipt) : Bool := r.id == idOf r.inputHash r.configHash r.artifacts

/-- The artifacts are those that the receipt records. -/
def matchesArtifacts (r : Receipt) (artifacts : List Artifact) : Bool :=
  r.artifacts == artifacts.map ArtifactDigest.of

/-! ## 2. Files -/

/-- The name of the receipt in the output directory. -/
def fileName : String := "compile_receipt.json"

def digestJson (d : ArtifactDigest) : Value :=
  .object [("name", .string d.name), ("kind", .string d.kind.name),
    ("body_hash", .string d.bodyHash)]

def toJson (r : Receipt) : Value :=
  .object [
    ("receipt_id", .string r.id),
    ("input_hash", .string r.inputHash),
    ("config_hash", .string r.configHash),
    ("artifacts", .array (r.artifacts.map digestJson)),
    ("tool_version", .string r.toolVersion),
    ("generated_at", .string r.generatedAt)]

/-- An artifact's entry. -/
def digest? (n : Node) : Option ArtifactDigest := do
  let r ← n.record? .json [["name"], ["kind"], ["body_hash"]]
  some {
    name := ← r.required 0 Node.text?
    kind := ← r.required 1 (chosen? .json ArtifactKind.ofName?)
    bodyHash := ← r.required 2 Node.text? }

/-- A point in time, as it is written. -/
def timestamp? (n : Node) : Option String := n.text?.filter isTimestamp

/-- The receipt at a node. -/
def ofNode? (n : Node) : Option Receipt := do
  let r ← n.record? .json
    [["receipt_id"], ["input_hash"], ["config_hash"], ["artifacts"], ["tool_version"],
     ["generated_at"]]
  some {
    id := ← r.required 0 Node.text?
    inputHash := ← r.required 1 Node.text?
    configHash := ← r.required 2 Node.text?
    artifacts := ← r.required 3 (Node.listOf? digest?)
    toolVersion := ← r.required 4 Node.text?
    generatedAt := ← r.required 5 timestamp? }

/-- Writes the receipt to a file. -/
def save (r : Receipt) (path : String) (t : Tree) : Except Failure Tree :=
  match t.write? path r.toJson.pretty with
  | some t => .ok t
  | none => .error (.because .io ("failed to write receipt " ++ quoted path))

/-- Reads a receipt from a file. -/
def load (path : String) (t : Tree) : Except Failure Receipt :=
  match t.read? path with
  | none => .error (.because .io ("failed to read receipt " ++ quoted path))
  | some text =>
      match (Json.read? text).bind ofNode? with
      | some r => .ok r
      | none => .error (.because .json ("failed to parse receipt " ++ quoted path))

end Receipt

end DataVault.Compile
