/-
DataVault.Yaml.Tag — the tags of nodes.

A tag is a string of octets, most of which stand for themselves and some of
which are escaped. Four tags of YAML itself name types of scalars. A tag
that starts with an exclamation mark belongs to an application and is the
label of the value below it, provided that its octets write a text.
-/
namespace DataVault.Yaml

abbrev Octets := List UInt8

/-- The octets of a text. -/
def octetsOf (s : String) : Octets := s.toUTF8.toList

/-- The text that octets write. -/
def textOf? (os : Octets) : Option String := String.fromUTF8? ⟨os.toArray⟩

inductive Tag where
  | null
  | bool
  | int
  | float
  /-- The label of an application. -/
  | label (name : String)
  /-- The label of an application, in octets that write no text. -/
  | garbled
  /-- A tag that means nothing. -/
  | foreign
  deriving DecidableEq

namespace Tag

/-- The octets of a tag of YAML itself. -/
def standardOctets (name : String) : Octets := octetsOf ("tag:yaml.org,2002:" ++ name)

/-- The tag in octets. A label without a name is the exclamation mark. -/
def ofOctets (os : Octets) : Tag :=
  match os with
  | 0x21 :: name =>
      if name.isEmpty then label "!"
      else
        match textOf? name with
        | some name => label name
        | none => garbled
  | _ =>
      if os = standardOctets "null" then null
      else if os = standardOctets "bool" then bool
      else if os = standardOctets "int" then int
      else if os = standardOctets "float" then float
      else foreign

def label? : Tag → Option String
  | label name => some name
  | _ => none

def isLabel (t : Tag) : Bool := t.label?.isSome

end Tag

end DataVault.Yaml
