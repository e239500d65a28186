/-
DataVault.Metadata.Source — where rows come from.

Rows are read from comma-separated text with a header line, or from a
document with a list of `entities`; the extension of the path decides.
-/
import DataVault.Csv.Reader
import DataVault.Document.Record
import DataVault.Document.Shape
import DataVault.Failure
import DataVault.Files.Tree
import DataVault.Json.Reader
import DataVault.Metadata.Row
import DataVault.Text.Quoted
import DataVault.Toml.Reader
import DataVault.Yaml.Reader

namespace DataVault.Metadata

open DataVault.Document DataVault.Files DataVault.Text

/-! ## 1. Comma-separated text -/

/-- The texts under the header that names a field, in one record. Two
headers for one field are refused. A field that the record is too short for
is empty. -/
def columnText? (headers fields spellings : List String) : Option String :=
  match headers.zipIdx.filter fun h => spellings.contains h.1 with
  | [] => some ""
  | [(_, i)] => some (fields[i]?.getD "")
  | _ => none

/-- A header that names no field of a row. -/
def isUnknownHeader (header : String) : Bool := !Row.fields.any (·.contains header)

/-- The row in a record. A record may end early, but not before the column
of an unknown header. -/
def rowOfRecord? (headers fields : List String) : Option Row :=
  if (headers.drop fields.length).any isUnknownHeader then none
  else
    match Row.fields.mapM (columnText? headers fields) with
    | some [name, kind, businessKey, descriptive, source] =>
        some ⟨name, kind, .joined businessKey, .joined descriptive, source⟩
    | _ => none

/-- The rows in the records after the header line, counted from a number. -/
def rowsFrom (headers : List String) (number : Nat) :
    List (List String) → Except Failure (List Row)
  | [] => .ok []
  | record :: records =>
      match rowOfRecord? headers (record.map trim) with
      | none => .error (.because .csv ("malformed metadata row " ++ toString number))
      | some row => (rowsFrom headers (number + 1) records).map (row :: ·)

/-- The rows in comma-separated text. -/
def parseCsv (text : String) : Except Failure (List Row) :=
  match Csv.records text with
  | [] => .ok []
  | headers :: records => rowsFrom (headers.map trim) 1 records

/-! ## 2. Documents -/

/-- The notation that an extension in lower case stands for. -/
def notationOf? : String → Option Notation
  | "json" => some .json
  | "yaml" | "yml" => some .yaml
  | "toml" => some .toml
  | _ => none

/-- The name of a notation in messages. -/
def notationLabel : Notation → String
  | .json => "JSON"
  | .yaml => "YAML"
  | .toml => "TOML"

/-- The failures of reading a notation. -/
def notationCause : Notation → Cause
  | .json => .json
  | .yaml => .yaml
  | .toml => .toml

/-- The document in a text, as far as a shape asks for it. -/
def readDocument? (shape : Shape) : Notation → String → Option Node
  | .json => Json.read?
  | .yaml => Yaml.read? shape
  | .toml => Toml.read?

/-- The fields of a document of metadata. -/
def documentFields : List (List String) := [["entities"]]

/-- The shape of a document of metadata. -/
def documentShape : Shape := .fields documentFields [.list Row.shape]

/-- The rows in the list of entities, which may be missing. -/
def entities? (form : Notation) (n : Node) : Option (List Row) := do
  let r ← n.record? form documentFields
  r.orElse 0 [] (Node.listOf? (Row.ofNode? form))

/-- The rows in a document whose notation an extension names. -/
def parseDocument (text extension : String) : Except Failure (List Row) :=
  let name := lower extension
  match notationOf? name with
  | none => .error (.of ("unsupported metadata document extension: " ++ quoted name))
  | some form =>
      match (readDocument? documentShape form text).bind (entities? form) with
      | some rows => .ok rows
      | none =>
          .error (.because (notationCause form)
            ("failed to parse " ++ notationLabel form ++ " metadata"))

/-! ## 3. Sources -/

/-- A place that rows are read from. -/
inductive Source where
  | csv (path : String)
  | document (path : String)
  /-- Rows at hand. -/
  | rows (rows : List Row)

namespace Source

/-- The source at a path. -/
def ofPath (path : String) : Except Failure Source :=
  let extension := Path.lowerExtension path
  if extension = "csv" then .ok (csv path)
  else if (notationOf? extension).isSome then .ok (document path)
  else .error (.of ("unsupported metadata extension: " ++ quoted extension))

/-- The source in words. -/
def describe : Source → String
  | csv path => "csv " ++ path
  | document path => "document " ++ path
  | rows rs => toString rs.length ++ " in-memory row(s)"

/-- The rows of a source. -/
def read (t : Tree) : Source → Except Failure (List Row)
  | rows rs => .ok rs
  | csv path =>
      match t.read? path with
      | some text =>
          (parseCsv text).mapError (.within ("failed to parse metadata file " ++ quoted path))
      | none =>
          if t.exists? path then
            .error ((Failure.because .csv "malformed metadata row 1").within
              ("failed to parse metadata file " ++ quoted path))
          else .error (.because .io ("failed to open metadata file " ++ quoted path))
  | document path =>
      match t.read? path with
      | none => .error (.because .io ("failed to read metadata file " ++ quoted path))
      | some text =>
          (parseDocument text (Path.extension path)).mapError
            (.within ("in metadata file " ++ quoted path))

end Source

end DataVault.Metadata
