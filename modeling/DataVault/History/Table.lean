/-
DataVault.History.Table — the history of a satellite, held in memory.

A version of a key is current until a snapshot brings the key with other
attributes; then it is closed, and the new version becomes the current one.
`Table.merge` applies a snapshot with the meaning of the generated merge
statement: of several rows with one hash key the one with the least digest
of its attributes is staged, and a staged row whose digest equals that of
the current version is not written.

    absent  ── first load ──────────▶ current
    current ── attributes changed ──▶ superseded, and a new current version
    current ── unchanged ───────────▶ current, nothing written
-/
import DataVault.Digest.KeyEncoding
import DataVault.Entity.Spec

namespace DataVault.History

open DataVault.Digest DataVault.Entity

/-! ## 1. Rows -/

/-- A value of a snapshot. -/
abbrev Value := Option String

/-- A row of a snapshot: the values of the business key, then those of the
descriptive fields. -/
structure SnapshotRow where
  key : List Value
  attributes : List Value
  deriving DecidableEq

/-- A version of a key. -/
structure Version where
  hashKey : String
  key : List Value
  attributes : List Value
  hashDiff : String
  loadedAt : Int
  isCurrent : Bool
  startsAt : Int
  endsAt : Option Int
  deriving DecidableEq

/-- Where a key stands. -/
inductive RowState where
  | absent
  | current
  | superseded
  deriving DecidableEq

def Version.state (v : Version) : RowState := if v.isCurrent then .current else .superseded

/-- The history, with the counts of values that its rows have. -/
structure Table where
  keyCount : Nat
  attributeCount : Nat
  versions : List Version
  deriving DecidableEq

/-- Which values of a row are too few or too many. -/
inductive RowPart where
  | businessKey
  | descriptive
  deriving DecidableEq

def RowPart.name : RowPart → String
  | businessKey => "business key"
  | descriptive => "attribute"

inductive HistoryError where
  /-- The values cannot be digested. -/
  | encoding (error : CompileError)
  | arity (part : RowPart) (expected actual : Nat)
  | multipleCurrent (hashKey : String) (count : Nat)
  deriving DecidableEq

def HistoryError.message : HistoryError → String
  | encoding error => error.message
  | arity part expected actual =>
      "snapshot row has " ++ toString actual ++ " " ++ part.name ++ " values, expected " ++
        toString expected
  | multipleCurrent hashKey count =>
      "hash key " ++ hashKey ++ " has " ++ toString count ++ " current rows"

/-! ## 2. Staging -/

/-- A snapshot row with its two digests. -/
structure Staged where
  hashKey : String
  hashDiff : String
  row : SnapshotRow
  deriving DecidableEq

namespace Table

/-- A history without versions. -/
def empty (keyCount attributeCount : Nat) : Table := ⟨keyCount, attributeCount, []⟩

/-- An empty history of an entity. -/
def forSpec (spec : EntitySpec) : Table := empty spec.businessKey.length spec.descriptive.length

/-- The row has the counts of values that the history has. -/
def checkRow (t : Table) (row : SnapshotRow) : Except HistoryError Unit :=
  if row.key.length ≠ t.keyCount then
    .error (.arity .businessKey t.keyCount row.key.length)
  else if row.attributes.length ≠ t.attributeCount then
    .error (.arity .descriptive t.attributeCount row.attributes.length)
  else .ok ()

/-- A digest of values. -/
def digestOf (encoding : KeyEncoding) (values : List Value) : Except HistoryError String :=
  (encoding.digest values).mapError .encoding

/-- Checks and digests one row. -/
def stageRow (t : Table) (encoding : KeyEncoding) (row : SnapshotRow) :
    Except HistoryError Staged := do
  t.checkRow row
  let hashKey ← digestOf encoding row.key
  let hashDiff ← digestOf encoding row.attributes
  pure ⟨hashKey, hashDiff, row⟩

end Table

/-- Adds a staged row. A row with the same hash key keeps its place, and of
the two the one with the smaller digest of attributes stays. -/
def addStaged (new : Staged) : List Staged → List Staged
  | [] => [new]
  | old :: rest =>
      if old.hashKey = new.hashKey then
        (if new.hashDiff < old.hashDiff then new else old) :: rest
      else old :: addStaged new rest

/-- One staged row for each hash key, in the order in which the keys first
appear. -/
def stagedOf (rows : List Staged) : List Staged :=
  rows.foldl (fun staged row => addStaged row staged) []

/-! ## 3. Merging -/

/-- What a staged row does to the history. -/
inductive Effect where
  /-- A first version. -/
  | insert
  /-- The current version is closed and a new one is inserted. -/
  | replace
  | keep
  deriving DecidableEq

/-- How many versions a merge wrote. -/
structure Summary where
  inserted : Nat
  closed : Nat
  unchanged : Nat
  deriving DecidableEq

/-- Versions written in all. -/
def Summary.writes (s : Summary) : Nat := s.inserted + s.closed

/-- The summary of a list of effects. -/
def Summary.ofEffects (effects : List Effect) : Summary where
  inserted := effects.countP (· != .keep)
  closed := effects.countP (· == .replace)
  unchanged := effects.countP (· == .keep)

namespace Version

/-- The first version of a staged row. -/
def ofStaged (now : Int) (s : Staged) : Version :=
  ⟨s.hashKey, s.row.key, s.row.attributes, s.hashDiff, now, true, now, none⟩

/-- The version is the current one of a key. -/
def isCurrentOf (hashKey : String) (v : Version) : Bool := v.isCurrent && v.hashKey == hashKey

/-- The version as it is once it has been replaced. -/
def close (now : Int) (v : Version) : Version := { v with isCurrent := false, endsAt := some now }

end Version

/-- Closes the first current version of a key. -/
def closeCurrent (now : Int) (hashKey : String) : List Version → List Version
  | [] => []
  | v :: vs =>
      if v.isCurrentOf hashKey then v.close now :: vs else v :: closeCurrent now hashKey vs

namespace Table

/-- The current version of a key. -/
def current? (t : Table) (hashKey : String) : Option Version :=
  t.versions.find? (Version.isCurrentOf hashKey)

/-- What a staged row does. The attributes of the current version are
digested anew, since their stored digest may come from another encoding. -/
def effectOf (t : Table) (encoding : KeyEncoding) (s : Staged) : Except HistoryError Effect :=
  match t.current? s.hashKey with
  | none => .ok .insert
  | some v => do
      let digest ← digestOf encoding v.attributes
      pure (if digest = s.hashDiff then .keep else .replace)

/-- Writes one effect. -/
def apply (now : Int) (t : Table) (change : Staged × Effect) : Table :=
  let (s, effect) := change
  match effect with
  | .keep => t
  | .insert => { t with versions := t.versions ++ [.ofStaged now s] }
  | .replace =>
      { t with versions := closeCurrent now s.hashKey t.versions ++ [.ofStaged now s] }

/-- Applies a snapshot at a time. The whole snapshot is checked before
anything is written, so a snapshot that is refused changes nothing. -/
def merge (t : Table) (encoding : KeyEncoding) (now : Int) (snapshot : List SnapshotRow) :
    Except HistoryError (Table × Summary) := do
  let staged := stagedOf (← snapshot.mapM (t.stageRow encoding))
  let effects ← staged.mapM (t.effectOf encoding)
  pure ((staged.zip effects).foldl (apply now) t, .ofEffects effects)

/-! ## 4. Reading the history -/

/-- Where a key stands. -/
def state (t : Table) (hashKey : String) : RowState :=
  if (t.current? hashKey).isSome then .current
  else if t.versions.any (·.hashKey == hashKey) then .superseded
  else .absent

/-- All versions of a key, the oldest first. -/
def history (t : Table) (hashKey : String) : List Version :=
  t.versions.filter (·.hashKey == hashKey)

/-- How many current versions a key has. -/
def currentCount (t : Table) (hashKey : String) : Nat :=
  t.versions.countP (Version.isCurrentOf hashKey)

/-- No key has more than one current version. -/
def checkSingleCurrent (t : Table) : Except HistoryError Unit :=
  match t.versions.find? fun v => t.currentCount v.hashKey > 1 with
  | some v => .error (.multipleCurrent v.hashKey (t.currentCount v.hashKey))
  | none => .ok ()

end Table

end DataVault.History
