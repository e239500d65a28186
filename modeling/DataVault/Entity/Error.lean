/-
DataVault.Entity.Error — why an entity is refused.

A `Violation` names the rule that a specification breaks. A
`CompileError` is the failure of one entity: an invalid specification, an
unknown kind, or a key value that contains the key separator. Each has a
stable code, and each code a category under which reports group it.
-/
import DataVault.Entity.Kind
import DataVault.Sql.Ident
import DataVault.Text.Quoted

namespace DataVault.Entity

open DataVault.Sql DataVault.Text

/-! ## 1. Broken rules -/

/-- A rule that an entity specification breaks. -/
inductive Violation where
  | missingField (field : String)
  | keyCount (kind : EntityKind) (min actual : Nat)
  | descriptiveFieldsRequired
  | descriptiveFieldsNotAllowed (kind : EntityKind)
  | invalidIdentifier (field : String) (reason : IdentError)
  | duplicateField (field : String)
  | reservedColumn (field : String)
  | duplicateEntity (firstRow : Nat)
  | artifactNameTaken (name owner : String)
  | kindMismatch (expected actual : EntityKind)
  deriving DecidableEq

def Violation.message : Violation → String
  | missingField field => "required field '" ++ field ++ "' is missing"
  | keyCount kind min actual =>
      kind.name ++ " requires at least " ++ toString min ++ " business key field(s), got " ++
        toString actual
  | descriptiveFieldsRequired => "satellite requires at least one descriptive field"
  | descriptiveFieldsNotAllowed kind => kind.name ++ " does not take descriptive fields"
  | invalidIdentifier field reason => "invalid " ++ field ++ ": " ++ reason.message
  | duplicateField field => "field '" ++ field ++ "' is declared more than once"
  | reservedColumn field => "field '" ++ field ++ "' clashes with a generated vault column"
  | duplicateEntity firstRow => "entity name already declared on row " ++ toString firstRow
  | artifactNameTaken name owner =>
      "artifact name '" ++ name ++ "' is already produced by entity '" ++ owner ++ "'"
  | kindMismatch expected actual =>
      actual.name ++ " spec routed to the " ++ expected.name ++ " generator"

/-! ## 2. Errors of one entity -/

/-- The failure of one entity. -/
inductive CompileError where
  | invalidSpec (entity : String) (violation : Violation)
  | unknownKind (entity kind : String)
  | ambiguousKeyDelimiter (separator value : String)
  deriving DecidableEq

def CompileError.message : CompileError → String
  | invalidSpec entity violation =>
      "invalid spec for entity '" ++ entity ++ "': " ++ violation.message
  | unknownKind entity kind => "unknown kind '" ++ kind ++ "' for entity '" ++ entity ++ "'"
  | ambiguousKeyDelimiter separator value =>
      "key value " ++ quoted value ++ " contains the key delimiter " ++ quoted separator

/-- The entity that the error belongs to, if it belongs to one. -/
def CompileError.entity? : CompileError → Option String
  | invalidSpec entity _ | unknownKind entity _ => some entity
  | ambiguousKeyDelimiter _ _ => none

/-! ## 3. Codes -/

/-- The stable code of an error. -/
inductive ErrorCode where
  | invalidSpec
  | unknownKind
  | ambiguousKeyDelimiter
  deriving DecidableEq

namespace ErrorCode

def name : ErrorCode → String
  | invalidSpec => "InvalidSpec"
  | unknownKind => "UnknownKind"
  | ambiguousKeyDelimiter => "AmbiguousKeyDelimiter"

def number : ErrorCode → Nat
  | invalidSpec => 1001
  | unknownKind => 1002
  | ambiguousKeyDelimiter => 1003

/-- The heading under which reports put the code. -/
def category : ErrorCode → String
  | invalidSpec => "spec_error"
  | unknownKind => "kind_error"
  | ambiguousKeyDelimiter => "hash_error"

/-- The name with the number in brackets. -/
def label (c : ErrorCode) : String := c.name ++ "(" ++ toString c.number ++ ")"

def ofName? (s : String) : Option ErrorCode :=
  [invalidSpec, unknownKind, ambiguousKeyDelimiter].find? (·.name == s)

end ErrorCode

def CompileError.code : CompileError → ErrorCode
  | invalidSpec _ _ => .invalidSpec
  | unknownKind _ _ => .unknownKind
  | ambiguousKeyDelimiter _ _ => .ambiguousKeyDelimiter

end DataVault.Entity
