/-
DataVault.Artifact.Written — the files that artifacts are written to.

A file is a header and the statement. In the `sqlx` format the header is a
configuration block whose texts are JSON strings; in the `sql` format it is
a list of comment lines, each text brought onto one line, and an empty
line.
-/
import DataVault.Artifact.Basic
import DataVault.Json.Value
import DataVault.Text.Blank

namespace DataVault.Artifact

open DataVault.Json DataVault.Text

/-- The format of output files. -/
inductive OutputFormat where
  | sqlx
  | sql
  deriving DecidableEq

namespace OutputFormat

/-- The file name extension, which is also the format's name. -/
def extension : OutputFormat → String
  | sqlx => "sqlx"
  | sql => "sql"

def ofName? (s : String) : Option OutputFormat := [sqlx, sql].find? (·.extension == s)

end OutputFormat

/-! ## 1. Configuration blocks -/

/-- A list of JSON strings. -/
def listText (texts : List String) : String :=
  "[" ++ String.intercalate ", " (texts.map stringText) ++ "]"

/-- A named group of entries inside a block. -/
def groupText (name : String) (entries : List String) : String :=
  name ++ ": \x7b\n    " ++ String.intercalate ",\n    " entries ++ "\n  \x7d"

/-- An entry that is left out when there is nothing in it. -/
def unlessEmpty {α : Type} (items : List α) (entry : String) : List String :=
  if items.isEmpty then [] else [entry]

/-- What the warehouse is told about a table. -/
def Header.warehouseEntries (h : Header) : List String :=
  (h.partitionBy.map fun text => "partitionBy: " ++ stringText text).toList ++
    unlessEmpty h.clusterBy ("clusterBy: " ++ listText h.clusterBy)

/-- The entries of the block. -/
def blockEntries (a : Artifact) : List String :=
  let h := a.header
  let columns := h.columns.map fun (name, doc) => name ++ ": " ++ stringText doc
  ["type: " ++ stringText a.buildType,
   "name: " ++ stringText a.targetName.text,
   "schema: " ++ stringText h.schema] ++
    unlessEmpty h.description.toList ("description: " ++ stringText h.description) ++
    unlessEmpty h.tags ("tags: " ++ listText h.tags) ++
    unlessEmpty h.warehouseEntries (groupText "bigquery" h.warehouseEntries) ++
    unlessEmpty columns (groupText "columns" columns)

/-- The artifact with a configuration block. -/
def sqlxText (a : Artifact) : String :=
  "config \x7b\n  " ++ String.intercalate ",\n  " a.blockEntries ++ "\n\x7d\n\n" ++ a.body

/-! ## 2. Comment lines -/

/-- The comment lines of the header. -/
def commentLines (a : Artifact) : List String :=
  let h := a.header
  ["-- " ++ h.schema ++ "." ++ a.targetName.text ++ " (" ++ a.buildType ++ ")"] ++
    unlessEmpty h.description.toList ("-- " ++ oneLine h.description) ++
    unlessEmpty h.tags ("-- tags: " ++ String.intercalate ", " h.tags) ++
    (h.partitionBy.map fun text => "-- partition by: " ++ text).toList ++
    unlessEmpty h.clusterBy ("-- cluster by: " ++ String.intercalate ", " h.clusterBy) ++
    h.columns.map fun (name, doc) => "--   " ++ name ++ ": " ++ oneLine doc

/-- The artifact with comment lines. -/
def sqlText (a : Artifact) : String :=
  String.join (a.commentLines.map (· ++ "\n")) ++ "\n" ++ a.body

/-- The artifact as the text of a file. -/
def written (a : Artifact) : OutputFormat → String
  | .sqlx => a.sqlxText
  | .sql => a.sqlText

end DataVault.Artifact
