/-
DataVault.Yaml.Tree — YAML documents as they are written.

A node may be anchored, and a reference stands for an anchored node. Names
of anchors may be used again, so anchors are counted: an anchor gets the
number of the names that were known before it, whether its own name is new
or not, and a reference has the number that its name had last. Where two
anchors have one number, a reference to it means the later one, even if the
reference stands before it. References may go round in circles.
-/
import DataVault.Yaml.Scalar
import DataVault.Yaml.Tag

namespace DataVault.Yaml

inductive Tree where
  | scalar (tag : Option Tag) (style : Style) (text : String)
  | list (tag : Option Tag) (items : List Tree)
  | table (tag : Option Tag) (members : List (Tree × Tree))
  | anchored (number : Nat) (tree : Tree)
  | reference (number : Nat)
  deriving Inhabited

namespace Tree

/-- A node without any text. -/
def empty : Tree := scalar none .plain ""

mutual

/-- The number of signs in a tree: a scalar and a reference are one, and a
list or table has one at its start and one at its end. -/
def size : Tree → Nat
  | scalar _ _ _ | reference _ => 1
  | list _ items => sizeOfItems items + 2
  | table _ members => sizeOfMembers members + 2
  | anchored _ t => t.size

def sizeOfItems : List Tree → Nat
  | [] => 0
  | t :: ts => t.size + sizeOfItems ts

def sizeOfMembers : List (Tree × Tree) → Nat
  | [] => 0
  | (key, value) :: rest => key.size + value.size + sizeOfMembers rest

end

mutual

/-- The anchored nodes with their numbers, in the order in which they
start. -/
def anchors : Tree → List (Nat × Tree)
  | scalar _ _ _ | reference _ => []
  | list _ items => anchorsOfItems items
  | table _ members => anchorsOfMembers members
  | anchored number t => (number, t) :: t.anchors

def anchorsOfItems : List Tree → List (Nat × Tree)
  | [] => []
  | t :: ts => t.anchors ++ anchorsOfItems ts

def anchorsOfMembers : List (Tree × Tree) → List (Nat × Tree)
  | [] => []
  | (key, value) :: rest => key.anchors ++ value.anchors ++ anchorsOfMembers rest

end

end Tree

/-- A document: its node, and the nodes that references stand for, by their
numbers. -/
structure Written where
  root : Tree
  anchored : Array Tree

namespace Written

/-- Gives a number to an anchored node. Numbers are handed out without
gaps. -/
def put (nodes : Array Tree) (anchor : Nat × Tree) : Array Tree :=
  if anchor.1 < nodes.size then nodes.setIfInBounds anchor.1 anchor.2 else nodes.push anchor.2

def ofTree (t : Tree) : Written := ⟨t, t.anchors.foldl put #[]⟩

end Written

end DataVault.Yaml
