/-
DataVault.Compile.Run — a whole run.

Rows become entities, the guards look at them, entities that lose an
artifact name are rejected, the rest are generated, and the artifacts go to
a sink. Everything up to the sink is `plan`, a function of the settings and
the rows; a run that stops there has written nothing. How entities are
generated is left to the run: one after the other, or on a pool of workers.
-/
import DataVault.Compile.Receipt
import DataVault.Compile.RunConfig
import DataVault.Generate.Dispatch
import DataVault.Guard.Suite
import DataVault.Metadata.Ingest
import DataVault.Metadata.Source
import DataVault.Output.Sink

namespace DataVault.Compile

open DataVault.Artifact DataVault.Entity DataVault.Files DataVault.Generate DataVault.Guard
open DataVault.Metadata DataVault.Output DataVault.Text

/-! ## 1. Planning -/

/-- What a run will write, and what it found out on the way. -/
structure Plan where
  artifacts : List Artifact
  rejections : List Rejection
  guards : List GuardResult
  inputHash : String
  configHash : String

/-- The error of an entity that loses an artifact name. -/
def overlapError (spec : EntitySpec) (o : Overlap) : CompileError :=
  spec.reject (.artifactNameTaken o.name.text o.owner.text)

/-- Rejects the entity of an overlap. -/
def rejectOverlap (g : Ingested) (o : Overlap) : Ingested :=
  match g.accepted[o.index]? with
  | some a => g.reject o.index (overlapError a.spec o)
  | none => g

/-- Rejects every entity that loses an artifact name, the last one first, so
that the positions of the others stay. -/
def rejectOverlaps (s : Settings) (g : Ingested) : Ingested :=
  (Claims.of s g.specs).overlaps.reverse.foldl rejectOverlap g

/-- A rejection with the row of its entity, where it has none yet. -/
def locate (g : Ingested) (r : Rejection) : Rejection :=
  { r with row := r.row.or (g.rowOf? r.entity) }

/-- What rows become, given what becomes of entities. -/
def planWith (generating : List EntitySpec → Outcome) (s : Settings) (listSeparator : Char)
    (rows : List Row) : Except Failure Plan :=
  let ingested := ingest listSeparator rows
  let guards := evaluate s ingested.specs
  if allPassed guards then
    let kept := rejectOverlaps s ingested
    let outcome := generating kept.specs
    .ok {
      artifacts := outcome.artifacts
      rejections := kept.rejections ++ outcome.rejections.map (locate kept)
      guards
      inputHash := inputHash kept.specs
      configHash := s.fingerprint }
  else .error (.of (remediationSummary guards))

/-- What rows become. -/
def plan (s : Settings) (listSeparator : Char) (rows : List Row) : Except Failure Plan :=
  planWith (dispatch s) s listSeparator rows

/-! ## 2. Compiling -/

/-- What a run did. -/
structure Summary where
  artifacts : List Artifact
  rejections : List Rejection
  guards : List GuardResult
  receipt : Receipt
  report : SinkReport

namespace Summary

/-- Nothing was rejected. -/
def isClean (s : Summary) : Bool := s.rejections.isEmpty

def artifactNames (s : Summary) : List String := s.artifacts.map (·.targetName.text)

end Summary

/-- The rows of a source, or why there are none. -/
def readRows (source : Source) (t : Tree) : Except Failure (List Row) :=
  (source.read t).mapError (.within ("failed to read metadata from " ++ source.describe))

/-- Carries a plan out. -/
def Plan.carryOut {σ : Type} (p : Plan) (sink : Sink σ) (now : String) : Step σ Summary := do
  sink.persistAll p.artifacts
  let report ← sink.finish
  Step.done
    { artifacts := p.artifacts
      rejections := p.rejections
      guards := p.guards
      receipt := .make p.inputHash p.configHash p.artifacts now
      report }

/-- Compiles rows into a sink, given what becomes of entities. -/
def compileWith {σ : Type} (generating : List EntitySpec → Outcome) (s : Settings)
    (listSeparator : Char) (sink : Sink σ) (now : String) (rows : List Row) :
    Step σ Summary := do
  let p ← Step.ofExcept (planWith generating s listSeparator rows)
  p.carryOut sink now

/-- Compiles rows into a sink. -/
def compile {σ : Type} (s : Settings) (listSeparator : Char) (sink : Sink σ) (now : String)
    (rows : List Row) : Step σ Summary :=
  compileWith (dispatch s) s listSeparator sink now rows

/-! ## 3. Running -/

namespace RunConfig

/-- The settings of the file sink. -/
def fileSettings (c : RunConfig) : FileSettings := ⟨c.outputDirectory, c.format, c.pruneStale⟩

/-- The metadata has to be a file. -/
def checkMetadata (c : RunConfig) (t : Tree) : Except Failure Unit :=
  if !t.exists? c.metadata then
    .error (.of ("metadata file " ++ quoted c.metadata ++ " does not exist"))
  else if !t.isFile c.metadata then
    .error (.of ("metadata path " ++ quoted c.metadata ++ " is not a file"))
  else .ok ()

/-- The rows of the metadata file. -/
def source (c : RunConfig) (t : Tree) : Except Failure Source := do
  c.checkMetadata t
  Source.ofPath c.metadata

/-- What becomes of entities: they are generated on the pool if that is
wanted, and else in turn. -/
def generating (c : RunConfig) (pool : Pool) : List EntitySpec → Outcome :=
  if c.parallel then dispatchOn pool c.settings else dispatch c.settings

/-- Compiles rows into a sink as told. -/
def compile {σ : Type} (c : RunConfig) (pool : Pool) (sink : Sink σ) (now : String)
    (rows : List Row) : Step σ Summary :=
  compileWith (c.generating pool) c.settings c.listSeparator sink now rows

/-- Compiles into memory. -/
def runInMemory (c : RunConfig) (pool : Pool) (source : Source) (now : String) (t : Tree) :
    Except Failure Summary := do
  let rows ← readRows source t
  (c.compile pool memorySink now rows []).1

def receiptPath (c : RunConfig) : String := Path.join c.outputDirectory Receipt.fileName

/-- Writes the receipt of a run, if one is wanted. -/
def saveReceipt (c : RunConfig) (summary : Summary) : Step Tree Unit := fun t =>
  if c.writeReceipt then
    match summary.receipt.save c.receiptPath t with
    | .ok t => (.ok (), t)
    | .error f => (.error f, t)
  else (.ok (), t)

/-- Compiles into the output directory. The manifest is read before the
metadata, and the receipt is written last. -/
def runIntoFiles (c : RunConfig) (pool : Pool) (source : Source) (now : String) :
    Step Tree Summary := fun t =>
  let started : Except Failure (FileState × List Row) := do
    let st ← c.fileSettings.start t
    let rows ← readRows source t
    pure (st, rows)
  match started with
  | .error f => (.error f, t)
  | .ok (st, rows) =>
      match c.compile pool c.fileSettings.sink now rows st with
      | (.error f, st) => (.error f, st.tree)
      | (.ok summary, st) =>
          match c.saveReceipt summary st.tree with
          | (.error f, t) => (.error f, t)
          | (.ok _, t) => (.ok summary, t)

/-- Runs as told, at a time. -/
def run (c : RunConfig) (pool : Pool) (now : String) : Step Tree Summary := fun t =>
  match c.source t with
  | .error f => (.error f, t)
  | .ok source =>
      if c.dryRun then (c.runInMemory pool source now t, t) else c.runIntoFiles pool source now t

/-- The names in the manifest of the run before. -/
def previousNames (c : RunConfig) (t : Tree) : List String :=
  match c.fileSettings.start t with
  | .ok st => st.previous
  | .error _ => []

/-- The paths of the artifacts that the metadata describes. -/
def artifactPaths (c : RunConfig) (t : Tree) : List String :=
  let planned : Except Failure Plan := do
    let rows ← readRows (← c.source t) t
    plan c.settings c.listSeparator rows
  match planned with
  | .ok p => p.artifacts.map c.fileSettings.pathOf
  | .error _ => []

/-- The paths that a run looks at, as far as the tree tells. -/
def lookedAt (c : RunConfig) (t : Tree) : List String :=
  [c.metadata, c.outputDirectory, c.fileSettings.manifestPath, c.receiptPath] ++
    (c.previousNames t).map (Path.join c.outputDirectory) ++ c.artifactPaths t

end RunConfig

end DataVault.Compile
