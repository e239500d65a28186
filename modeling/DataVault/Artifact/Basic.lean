/-
DataVault.Artifact.Basic — generated artifacts.

An `Artifact` is one unit of output: a statement, and a header that says
where and how it is built. The header's columns are documented in the
order in which the statement projects them, each name once.
-/
import DataVault.Entity.Naming

namespace DataVault.Artifact

open DataVault.Entity DataVault.Sql

/-! ## 1. Headers -/

/-- What a statement is for. -/
inductive ArtifactKind where
  /-- A relation built from a query. -/
  | table
  /-- A statement run for its effect. -/
  | operation
  deriving DecidableEq

namespace ArtifactKind

def name : ArtifactKind → String
  | table => "table"
  | operation => "operation"

def ofName? (s : String) : Option ArtifactKind := [table, operation].find? (·.name == s)

end ArtifactKind

/-- Column names with their descriptions. -/
abbrev ColumnDocs := List (String × String)

/-- Documents a column. A column documented before keeps its place and gets
the new description. -/
def putColumn (docs : ColumnDocs) (name doc : String) : ColumnDocs :=
  match docs with
  | [] => [(name, doc)]
  | (n, d) :: rest =>
      if n = name then (n, doc) :: rest else (n, d) :: putColumn rest name doc

/-- The documentation that a list of descriptions amounts to. -/
def ColumnDocs.ofList (entries : List (String × String)) : ColumnDocs :=
  entries.foldl (fun docs entry => putColumn docs entry.1 entry.2) []

/-- How an artifact is built. -/
structure Header where
  schema : String
  /-- A table is loaded by appending. -/
  incremental : Bool
  tags : List String
  description : String
  /-- The partition expression, written in the dialect. -/
  partitionBy : Option String
  clusterBy : List String
  columns : ColumnDocs
  deriving DecidableEq

/-- A header that says nothing. -/
def Header.empty : Header := ⟨"", false, [], "", none, [], []⟩

/-! ## 2. Laws of column documentation -/

/-- Documenting a column adds its name at the end, or leaves the names as
they are. -/
theorem map_fst_putColumn (docs : ColumnDocs) (name doc : String) :
    (putColumn docs name doc).map Prod.fst =
      if name ∈ docs.map Prod.fst then docs.map Prod.fst else docs.map Prod.fst ++ [name] := by
  induction docs with
  | nil => simp [putColumn]
  | cons entry rest ih =>
    obtain ⟨n, d⟩ := entry
    by_cases h : n = name
    · simp [putColumn, h]
    · simp only [putColumn, h, if_false, List.map_cons, ih, List.mem_cons, Ne.symm h, false_or]
      split <;> simp

end DataVault.Artifact

/-! ## 3. Artifacts -/

namespace DataVault

open DataVault.Artifact DataVault.Entity DataVault.Sql

/-- One unit of output. -/
structure Artifact where
  targetName : Ident
  kind : ArtifactKind
  entity : Ident
  entityKind : EntityKind
  role : ArtifactRole
  header : Header
  /-- The statement, in the dialect. -/
  body : String
  deriving DecidableEq

/-- The type under which a build tool lists the artifact. -/
def Artifact.buildType (a : Artifact) : String :=
  match a.kind, a.header.incremental with
  | .operation, _ => "operations"
  | .table, true => "incremental"
  | .table, false => "table"

end DataVault
