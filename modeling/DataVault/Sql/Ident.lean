/-
DataVault.Sql.Ident — SQL identifiers.

An `Ident` is an ASCII letter or underscore followed by ASCII letters,
digits and underscores, at most 128 bytes in all. Every column and table
name that reaches a statement is one, so no statement has to quote or
escape a name. `Ident.parse` is the only way in from arbitrary text, and
says which of the three rules a text breaks.
-/
import DataVault.Text.Control

namespace DataVault.Sql

open DataVault.Text

/-! ## 1. Errors -/

/-- Why a text is no identifier, or no table reference. -/
inductive IdentError where
  | empty
  | tooLong (text : String)
  | invalidCharacters (text : String)
  | tooManyParts (text : String)
  deriving DecidableEq

def IdentError.message : IdentError → String
  | .empty => "identifier cannot be empty"
  | .tooLong text => "identifier '" ++ text ++ "' exceeds 128 characters"
  | .invalidCharacters text =>
      "identifier '" ++ text ++
        "' must start with a letter or underscore and contain only letters, digits and underscores"
  | .tooManyParts text => "table reference '" ++ text ++ "' has more than 3 parts"

/-! ## 2. Identifiers -/

/-- The greatest length of an identifier, in bytes. -/
def Ident.maxLength : Nat := 128

/-- A character that may start an identifier. -/
def Ident.isStart (c : Char) : Bool := c.isAlpha || c == '_'

/-- A character that may stand in an identifier. -/
def Ident.isPart (c : Char) : Bool := c.isAlphanum || c == '_'

/-- The characters are those of an identifier, of whatever length. -/
def Ident.spelledBy : List Char → Bool
  | [] => false
  | c :: cs => Ident.isStart c && cs.all Ident.isPart

/-- A SQL name. -/
structure Ident where
  text : String
  spelled : Ident.spelledBy text.toList = true
  short : text.utf8ByteSize ≤ Ident.maxLength
  deriving DecidableEq

namespace Ident

instance : ToString Ident := ⟨Ident.text⟩

/-- Two identifiers with one text are one identifier. -/
theorem ext_text {a b : Ident} (h : a.text = b.text) : a = b := by
  cases a; cases b; cases h; rfl

/-- Reads an identifier; the text is taken as it stands. -/
def parse (text : String) : Except IdentError Ident :=
  if text.isEmpty then .error .empty
  else if short : text.utf8ByteSize ≤ maxLength then
    if spelled : spelledBy text.toList = true then .ok ⟨text, spelled, short⟩
    else .error (.invalidCharacters text)
  else .error (.tooLong text)

/-- Length in bytes, which is also the length in characters. -/
def length (i : Ident) : Nat := i.text.utf8ByteSize

/-- The identifier with `_` and a suffix appended. -/
def withSuffix (i : Ident) (suffix : String) : Except IdentError Ident :=
  parse (i.text ++ "_" ++ suffix)

/-- The texts of the identifiers with `glue` between them. -/
def textsJoined (glue : String) (is : List Ident) : String :=
  String.intercalate glue (is.map Ident.text)

/-- The identifiers joined with `_`. -/
def joined (is : List Ident) : Except IdentError Ident := parse (textsJoined "_" is)

/-- Warehouses fold the case of unquoted names, so two names that differ in
case alone are the same name. -/
def sameName (a b : Ident) : Bool := eqIgnoreCase a.text b.text

/-- Some identifier of the list is the same name. -/
def among (is : List Ident) (i : Ident) : Bool := is.any (sameName · i)

/-- The order of the texts by code point. -/
def order (a b : Ident) : Ordering := compare a.text b.text

end Ident

end DataVault.Sql
