/-
DataVault.Metadata.Row — unchecked rows of entity metadata.

A row holds the texts that describe one entity. Its two list cells are
either one text, in which a separator stands between the items, or a list
as the document gave it; `ListCell.items` makes the two alike.
-/
import DataVault.Document.Record
import DataVault.Document.Shape
import DataVault.Entity.Spec

namespace DataVault.Metadata

open DataVault.Document DataVault.Entity DataVault.Text

/-! ## 1. List cells -/

/-- A list inside a row. -/
inductive ListCell where
  /-- Items in one text, with separators between them. -/
  | joined (text : String)
  | items (texts : List String)
  deriving DecidableEq

namespace ListCell

/-- The items as they stand. -/
def pieces (separator : Char) : ListCell → List String
  | joined text => splitOn separator text
  | items texts => texts

/-- The items without blanks around them; items that are blank are left
out. -/
def entries (separator : Char) (cell : ListCell) : List String :=
  ((cell.pieces separator).map trim).filter (!·.isEmpty)

/-- A text or a list of texts. -/
def ofNode? : Node → Option ListCell
  | .list nodes => (nodes.mapM Node.freeText?).map items
  | n => n.freeText?.map joined

end ListCell

/-! ## 2. Rows -/

/-- One row of metadata. -/
structure Row where
  name : String
  kind : String
  businessKey : ListCell
  descriptive : ListCell
  source : String
  deriving DecidableEq

namespace Row

/-- The spellings of the fields. -/
def fields : List (List String) :=
  [["table_name", "entity_name", "name"], ["table_type", "entity_type", "kind", "type"],
   ["business_key"], ["descriptive_fields", "columns"], ["source_table"]]

/-- The shape of a row. -/
def shape : Shape := .fields fields [.single, .single, .free, .free, .single]

/-- The row at a node; every field may be missing, and none may be null. -/
def ofNode? (form : Notation) (n : Node) : Option Row := do
  let r ← n.record? form fields
  some {
    name := ← r.orElse 0 "" Node.text?
    kind := ← r.orElse 1 "" Node.text?
    businessKey := ← r.orElse 2 (.joined "") ListCell.ofNode?
    descriptive := ← r.orElse 3 (.joined "") ListCell.ofNode?
    source := ← r.orElse 4 "" Node.text? }

/-- The entity that a row describes. -/
def toSpec (separator : Char) (row : Row) : Except CompileError EntitySpec :=
  EntitySpec.parse row.name row.kind (row.businessKey.entries separator)
    (row.descriptive.entries separator) row.source

end Row

end DataVault.Metadata
