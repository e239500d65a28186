/-
DataVault.Generate.Satellite — satellites.

A satellite becomes a snapshot of its source and, unless it is switched
off, a merge of that snapshot into the history. The merge is one statement,
so closing a version and inserting the next one happen together. Its source
holds the staged snapshot twice over: every staged row keyed by its hash
key, which closes a changed current version or inserts a first one, and
every changed row once more with a NULL key, which matches nothing and
therefore inserts the new version. A row whose digest equals that of the
current version is not written at all.

The staged snapshot has one row per hash key: of several, the one with the
least digest of its descriptive fields.
-/
import DataVault.Generate.Basic
import DataVault.Sql.Merge

namespace DataVault.Generate

open DataVault.Artifact DataVault.Entity DataVault.Sql

/-! ## 1. Names -/

/-- The column that the history is matched on. -/
def mergeKey : Ident := ⟨"merge_key", by decide, by decide⟩

/-- The staged snapshot. -/
def stagedName : Ident := ⟨"staged", by decide, by decide⟩

/-- The alias of the history that is merged into. -/
def targetName : Ident := ⟨"target", by decide, by decide⟩

/-- The alias of the rows that are merged. -/
def sourceName : Ident := ⟨"source", by decide, by decide⟩

/-- The alias under which the merged rows read the history. -/
def currentName : Ident := ⟨"current_version", by decide, by decide⟩

/-- The generated column names of a satellite. -/
structure SatelliteNames where
  hashKey : Ident
  businessKeys : List Ident

/-- Derives the names. -/
def SatelliteNames.of (spec : EntitySpec) : Except CompileError SatelliteNames := do
  let hashKey ← spec.derived spec.hashKeyName
  let businessKeys ← spec.derived spec.businessKeyNames
  pure ⟨hashKey, businessKeys⟩

def SatelliteNames.all (n : SatelliteNames) : List Ident :=
  n.hashKey :: mergeKey :: n.businessKeys

/-! ## 2. The snapshot -/

/-- The projection of a snapshot row. -/
def snapshotItems (s : Settings) (spec : EntitySpec) (n : SatelliteNames) : List SelectItem :=
  .aliased (s.digestOf none spec.businessKey) n.hashKey ::
    renamedItems spec.businessKey n.businessKeys ++
    spec.descriptive.map (fun field => .expr (.field field) none) ++
    .aliased (s.digestOf none spec.descriptive) s.columns.hashDiff :: s.loadItems spec

/-- The whole snapshot. -/
def baseSelect (s : Settings) (spec : EntitySpec) (n : SatelliteNames) : Select where
  distinct := false
  items := snapshotItems s spec n
  source := .table spec.source
  filter := none
  firstPer := none

/-- The descriptions of a snapshot's columns. -/
def baseDocs (s : Settings) (spec : EntitySpec) (n : SatelliteNames) : List (String × String) :=
  (n.hashKey.text, "Hash key over " ++ fieldList spec.businessKey) ::
    businessKeyDocs spec.businessKey n.businessKeys ++
    spec.descriptive.map (fun field => (field.text, "Descriptive attribute")) ++
    (s.columns.hashDiff.text, "Hash diff over " ++ fieldList spec.descriptive) :: s.loadDocs

/-- The snapshot artifact. -/
def baseArtifact (s : Settings) (spec : EntitySpec) (n : SatelliteNames) :
    Except CompileError Artifact := do
  let targetName ← spec.derived (spec.artifactName .satelliteBase)
  let description :=
    "Snapshot of " ++ fieldList spec.descriptive ++ " for satellite " ++ spec.name.text ++
      ", loaded from " ++ spec.source.dotted
  pure {
    targetName
    kind := .table
    entity := spec.name
    entityKind := .satellite
    role := .satelliteBase
    header := s.header spec .table n.businessKeys ["base"] description (baseDocs s spec n)
    body := (Query.select (baseSelect s spec n)).toSql s.dialect }

/-! ## 3. The merge -/

/-- The snapshot with one row per hash key. -/
def stagedSelect (s : Settings) (spec : EntitySpec) (n : SatelliteNames) : Select :=
  { baseSelect s spec n with
    firstPer :=
      some ⟨[s.digestOf none spec.businessKey], [s.digestOf none spec.descriptive]⟩ }

/-- The staged rows keyed by their hash key. -/
def keyedSelect (n : SatelliteNames) : Select where
  distinct := false
  items := [.aliased (.of stagedName n.hashKey) mergeKey, .wildcard (some stagedName)]
  source := .named stagedName
  filter := none
  firstPer := none

/-- The relation is restricted to the current version of a key. -/
def currentVersionOf (s : Settings) (n : SatelliteNames) (relation : Ident) (key : Expr) : Expr :=
  .and [.compare .eq (.of relation n.hashKey) key,
    .compare .eq (.of relation s.columns.isCurrent) (.bool true)]

/-- The descriptive fields of a version differ from a digest. -/
def changedFrom (s : Settings) (spec : EntitySpec) (relation : Ident) (digest : Expr) : Expr :=
  .compare .ne (s.digestOf (some relation) spec.descriptive) digest

/-- The staged rows that change their current version, without a key. -/
def changedSelect (s : Settings) (spec : EntitySpec) (n : SatelliteNames) : Select where
  distinct := false
  items := [.aliased .null mergeKey, .wildcard (some stagedName)]
  source :=
    { relation := .named stagedName
      asName := none
      joins :=
        [⟨.table (s.vaultTable spec.name), currentName,
          currentVersionOf s n currentName (.of stagedName n.hashKey)⟩] }
  filter := some (changedFrom s spec currentName (.of stagedName s.columns.hashDiff))
  firstPer := none

/-- The rows that are merged. -/
def mergeSource (s : Settings) (spec : EntitySpec) (n : SatelliteNames) : Query :=
  .withQueries [(stagedName, .select (stagedSelect s spec n))]
    (.unionAll [keyedSelect n, changedSelect s spec n])

/-- A column that is taken over from the merged row. -/
def takenOver (column : Ident) : Assignment := ⟨column, .of sourceName column⟩

/-- The columns of an inserted version. -/
def insertedVersion (s : Settings) (spec : EntitySpec) (n : SatelliteNames) : List Assignment :=
  (n.hashKey :: n.businessKeys ++ spec.descriptive ++
      [s.columns.hashDiff, s.columns.loadTime, s.columns.recordSource]).map takenOver ++
    [⟨s.columns.isCurrent, .bool true⟩,
     ⟨s.columns.effectiveStart, .of sourceName s.columns.loadTime⟩,
     ⟨s.columns.effectiveEnd, .null⟩]

/-- The columns that closing a version sets. -/
def closedVersion (s : Settings) : List Assignment :=
  [⟨s.columns.isCurrent, .bool false⟩,
   ⟨s.columns.effectiveEnd, .of sourceName s.columns.loadTime⟩]

/-- The merge into the history. -/
def mergeStatement (s : Settings) (spec : EntitySpec) (n : SatelliteNames) : Merge where
  target := s.vaultTable spec.name
  targetAlias := targetName
  source := mergeSource s spec n
  sourceAlias := sourceName
  on := currentVersionOf s n targetName (.of sourceName mergeKey)
  clauses :=
    [.matchedUpdate (some (changedFrom s spec targetName (.of sourceName s.columns.hashDiff)))
      (closedVersion s),
     .notMatchedInsert (insertedVersion s spec n)]

/-- The merge artifact. -/
def mergeArtifact (s : Settings) (spec : EntitySpec) (n : SatelliteNames) :
    Except CompileError Artifact := do
  let description :=
    "SCD2 merge of " ++ spec.source.dotted ++ " into " ++ (s.vaultTable spec.name).dotted ++
      "; run at most one merge per target at a time"
  let targetName ← spec.derived (spec.artifactName .satelliteMerge)
  pure {
    targetName
    kind := .operation
    entity := spec.name
    entityKind := .satellite
    role := .satelliteMerge
    header := s.header spec .operation [] ["scd2"] description []
    body := (mergeStatement s spec n).toSql s.dialect }

/-! ## 4. Artifacts -/

/-- The artifacts of a satellite, the snapshot first. -/
def generateSatellite (s : Settings) (spec : EntitySpec) :
    Except CompileError (List Artifact) := do
  expectKind spec .satellite
  let names ← SatelliteNames.of spec
  checkReserved s spec names.all
  let base ← baseArtifact s spec names
  if s.emitHistory then
    let merge ← mergeArtifact s spec names
    pure [base, merge]
  else pure [base]

end DataVault.Generate
