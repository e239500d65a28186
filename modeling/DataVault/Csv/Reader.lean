/-
DataVault.Csv.Reader — reading comma-separated text.

A record is a line of fields. A field that starts with a quote runs to the
closing quote, and two quotes inside it stand for one; what follows the
closing quote is appended as it stands. Quotes elsewhere are ordinary
characters, empty lines are skipped, and text that ends inside quotes ends
the field.
-/
namespace DataVault.Csv

/-- Where the reader is. -/
inductive Position where
  | lineStart
  | fieldStart
  | inField
  | inQuotes
  /-- Behind a quote inside a quoted field. -/
  | afterQuote
  deriving DecidableEq

/-- The fields of the current record and the characters of the current
field, both with the last one first. -/
structure Draft where
  fields : List String
  field : List Char

namespace Draft

def empty : Draft := ⟨[], []⟩

def add (d : Draft) (c : Char) : Draft := { d with field := c :: d.field }

/-- Ends the current field. -/
def endField (d : Draft) : Draft := ⟨String.ofList d.field.reverse :: d.fields, []⟩

/-- The record, with the current field as its last one. -/
def record (d : Draft) : List String := d.endField.fields.reverse

end Draft

def isLineEnd (c : Char) : Bool := c == '\n' || c == '\r'

/-- The records of the text, from a position inside a record on. -/
def recordsFrom (p : Position) (d : Draft) : List Char → List (List String)
  | [] => if p = .lineStart then [] else [d.record]
  | c :: cs =>
      match p with
      | .inQuotes =>
          if c = '"' then recordsFrom .afterQuote d cs else recordsFrom .inQuotes (d.add c) cs
      | .afterQuote =>
          if c = '"' then recordsFrom .inQuotes (d.add c) cs
          else if c = ',' then recordsFrom .fieldStart d.endField cs
          else if isLineEnd c then d.record :: recordsFrom .lineStart .empty cs
          else recordsFrom .inField (d.add c) cs
      | .lineStart =>
          if isLineEnd c then recordsFrom .lineStart d cs
          else if c = '"' then recordsFrom .inQuotes d cs
          else if c = ',' then recordsFrom .fieldStart d.endField cs
          else recordsFrom .inField (d.add c) cs
      | .fieldStart =>
          if c = '"' then recordsFrom .inQuotes d cs
          else if c = ',' then recordsFrom .fieldStart d.endField cs
          else if isLineEnd c then d.record :: recordsFrom .lineStart .empty cs
          else recordsFrom .inField (d.add c) cs
      | .inField =>
          if c = ',' then recordsFrom .fieldStart d.endField cs
          else if isLineEnd c then d.record :: recordsFrom .lineStart .empty cs
          else recordsFrom .inField (d.add c) cs

/-- The text without a byte order mark in front. -/
def withoutMark : List Char → List Char
  | '\uFEFF' :: cs => cs
  | cs => cs

/-- The records of a text. -/
def records (text : String) : List (List String) :=
  recordsFrom .lineStart .empty (withoutMark text.toList)

end DataVault.Csv
