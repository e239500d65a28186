/-
DataVault.Document.Node — documents of any notation.

Configuration, metadata, manifests and receipts are read from JSON, YAML
or TOML text into one tree. A notation decides what a scalar may stand for
(in YAML `yes` is a text and `true` is a text or a truth value, in JSON
only a string is a text), so a scalar carries its answer to each question
that a reader can ask. Readers then ask, and know nothing of notations but
the rules for records and choices.
-/
namespace DataVault.Document

/-! ## 1. Trees -/

/-- How a document is written. -/
inductive Notation where
  | json
  | toml
  | yaml
  deriving DecidableEq

/-- What a scalar answers when it is read as a value of some type. -/
structure Scalar where
  /-- Where a text is asked for. -/
  text : Option String
  /-- Where the value alone decides whether it is a text. -/
  free : Option String
  /-- Where a truth value is asked for. -/
  bool : Option Bool
  /-- Where one of several names is asked for. -/
  choice : Option String
  /-- Where a value is optional, whether there is none. -/
  isNull : Option Bool
  /-- Stands for an empty list or an empty record. -/
  isEmpty : Bool
  deriving DecidableEq

namespace Scalar

/-- A scalar that answers nothing, such as a number. -/
def other : Scalar := ⟨none, none, none, none, some false, false⟩

def ofText (s : String) : Scalar := ⟨some s, some s, none, some s, some false, false⟩

def ofBool (b : Bool) : Scalar := ⟨none, none, some b, none, some false, false⟩

def null : Scalar := ⟨none, none, none, none, some true, false⟩

end Scalar

/-- What a member of a table is called. -/
inductive Key where
  | text (name : String)
  /-- A number, which may stand for the position of a field. -/
  | position (n : Nat)
  /-- Any other value. -/
  | other
  deriving DecidableEq

inductive Node where
  | scalar (s : Scalar)
  | list (items : List Node)
  /-- Members in written order; a key may stand more than once. -/
  | table (members : List (Key × Node))
  /-- Grammatical text without a value, such as half of a surrogate pair. It
  may stand where nothing reads it. -/
  | unreadable
  deriving Inhabited

namespace Node

/-! ## 2. Scalars -/

/-- A table whose members have names. -/
def named (members : List (String × Node)) : Node :=
  table (members.map fun (name, value) => (.text name, value))

def scalar? : Node → Option Scalar
  | scalar s => some s
  | _ => none

def text? (n : Node) : Option String := n.scalar?.bind (·.text)

def bool? (n : Node) : Option Bool := n.scalar?.bind (·.bool)

/-- The text at a node that nothing but the node says is a text. -/
def freeText? (n : Node) : Option String := n.scalar?.bind (·.free)

/-- Whether there is no value at the node, where one is optional. -/
def isNull? : Node → Option Bool
  | scalar s => s.isNull
  | _ => some false

/-- One character. -/
def char? (n : Node) : Option Char :=
  match n.text?.map String.toList with
  | some [c] => some c
  | _ => none

/-! ## 3. Lists and tables -/

/-- The items of a list. -/
def items? : Node → Option (List Node)
  | list items => some items
  | scalar s => if s.isEmpty then some [] else none
  | _ => none

/-- The list of what `read` makes of the items, if it makes something of
each. -/
def listOf? {α : Type} (read : Node → Option α) (n : Node) : Option (List α) :=
  n.items?.bind (·.mapM read)

/-- The members of a table of texts, with a repeated name where it stood
first and the value it had last. -/
def textTable? {α : Type} (put : α → String → String → α) (empty : α) : Node → Option α
  | table members =>
      members.foldlM (fun acc m =>
        match m.1 with
        | .text name => m.2.text?.map (put acc name)
        | _ => none) empty
  | _ => none

/-- An empty list or table. -/
def isEmptyCollection : Node → Bool
  | list [] | table [] => true
  | _ => false

/-- One of several names. In JSON and TOML a name may also be the only
member of a table, with nothing in it. -/
def choice? (form : Notation) : Node → Option String
  | scalar s => s.choice
  | table [(.text name, value)] =>
      match form with
      | .json => if value.isNull? = some true then some name else none
      | .toml => if value.isEmptyCollection then some name else none
      | .yaml => none
  | _ => none

mutual

/-- Every value in the tree can be read without knowing its type. -/
def isReadable : Node → Bool
  | scalar _ => true
  | list items => allReadable items
  | table members => membersReadable members
  | unreadable => false

def allReadable : List Node → Bool
  | [] => true
  | n :: ns => n.isReadable && allReadable ns

def membersReadable : List (Key × Node) → Bool
  | [] => true
  | (_, n) :: rest => n.isReadable && membersReadable rest

end

end Node

end DataVault.Document
