/-
DataVault.Document.Record — records in a document.

A record has a fixed list of fields. It is a table of them by name, in any
order and with other names ignored, or, in JSON and TOML, a list of them by
position. A field may have several spellings, and two spellings of one
field in one table are refused.
-/
import DataVault.Document.Node

namespace DataVault.Document

/-- The values of a record's fields, in the order of the fields. -/
structure Record where
  /-- The record is a table. -/
  byName : Bool
  values : List (Option Node)

/-- The value of one field of a table, given its spellings: `none` where it
is given twice. -/
def fieldValue? (members : List (Key × Node)) (spellings : List String) :
    Option (Option Node) :=
  match members.filter fun m => (spellings.map Key.text).contains m.1 with
  | [] => some none
  | [m] => some (some m.2)
  | _ => none

/-- A record given by position. JSON refuses more values than there are
fields, TOML ignores them, and YAML has no such records. -/
def Record.ofItems? (form : Notation) (count : Nat) (items : List Node) : Option Record :=
  match form with
  | .json => if items.length ≤ count then some ⟨false, items.map some⟩ else none
  | .toml => some ⟨false, (items.take count).map some⟩
  | .yaml => none

/-- The record at a node, for fields with the given spellings. -/
def Node.record? (form : Notation) (fields : List (List String)) : Node → Option Record
  | table members => (fields.mapM (fieldValue? members)).map (Record.mk true)
  | list items => Record.ofItems? form fields.length items
  | scalar s => if s.isEmpty then some ⟨true, []⟩ else none
  | unreadable => none

namespace Record

/-- The value of the field at a position. -/
def value? (r : Record) (i : Nat) : Option Node := (r.values[i]?).join

variable {α : Type}

/-- A field that has to be there. -/
def required (r : Record) (i : Nat) (read : Node → Option α) : Option α :=
  (r.value? i).bind read

/-- A field with a value for its absence. -/
def orElse (r : Record) (i : Nat) (absent : α) (read : Node → Option α) : Option α :=
  match r.value? i with
  | none => some absent
  | some n => read n

/-- An optional value: null means that there is none. -/
def optionalOf (read : Node → Option α) (n : Node) : Option (Option α) :=
  match n.isNull? with
  | some true => some none
  | some false => (read n).map some
  | none => none

/-- An optional field. It may be missing in a table only. -/
def optional (r : Record) (i : Nat) (read : Node → Option α) : Option (Option α) :=
  match r.value? i with
  | none => if r.byName then some none else none
  | some n => optionalOf read n

end Record

end DataVault.Document
