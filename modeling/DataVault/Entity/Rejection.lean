/-
DataVault.Entity.Rejection — entities that were refused, and the report of
a run.

A rejection keeps the metadata row it came from, where there is one, the
entity's name as it was written, the code and the message of the error. A
report is the list of a run's rejections in the order they were made.
-/
import DataVault.Entity.Error
import DataVault.Json.Value

namespace DataVault.Entity

open DataVault.Json

/-- One refused entity. -/
structure Rejection where
  /-- Position in the metadata, counted from one. -/
  row : Option Nat
  entity : String
  code : ErrorCode
  message : String
  deriving DecidableEq

namespace Rejection

def ofError (row : Option Nat) (entity : String) (error : CompileError) : Rejection :=
  ⟨row, entity, error.code, error.message⟩

/-- The rejection on one line of a report. -/
def text (r : Rejection) : String :=
  let place :=
    match r.row with
    | some row => "row " ++ toString row ++ " "
    | none => ""
  place ++ "[" ++ r.code.category ++ "] " ++ r.entity ++ ": " ++ r.message

end Rejection

/-- The rejections of a run, with a count before them and one to a line. -/
def reportText (rejections : List Rejection) : String :=
  toString rejections.length ++ " entit(ies) rejected:\n" ++
    String.join (rejections.map fun r => "  - " ++ r.text ++ "\n")

/-- The rejection as JSON; the row is left out where there is none. -/
def Rejection.toJson (r : Rejection) : Value :=
  .object <|
    (r.row.map fun row => ("row", Value.number row)).toList ++
      [("entity", .string r.entity), ("code", .string r.code.name), ("message", .string r.message)]

/-- The rejections of a run as JSON. -/
def reportJson (rejections : List Rejection) : Value :=
  .object [("rejections", .array (rejections.map Rejection.toJson))]

/-- How many rejections have the code. -/
def countCode (code : ErrorCode) (rejections : List Rejection) : Nat :=
  rejections.countP (·.code == code)

end DataVault.Entity
