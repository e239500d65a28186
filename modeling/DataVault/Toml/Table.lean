/-
DataVault.Toml.Table — tables as TOML text builds them.

A table is made by a header, by being on the way to one, or by a dotted
key, and each of the three may be extended in its own way only: a table on
the way to a header may get a header of its own once, a table made by a
dotted key may be extended by dotted keys, and a value may not be extended
at all. `insert?` adds a key with a value, `openTable?` and `openItem?`
start the table of a header.
-/
import DataVault.Document.Node

namespace DataVault.Toml

open DataVault.Document

/-- What stands under a key. -/
inductive Item where
  /-- A value, complete as it stands. -/
  | value (n : Node)
  /-- A table. `implied` until it gets a header; `dotted` when a dotted key
  made it. -/
  | table (implied dotted : Bool) (members : List (String × Item))
  /-- The tables of a repeated header. -/
  | tables (items : List (List (String × Item)))

/-- The members of a table. -/
abbrev Members := List (String × Item)

/-! ## 1. Reading out -/

mutual

def Item.toNode : Item → Node
  | .value n => n
  | .table _ _ members => .named (memberNodes members)
  | .tables items => .list (tableNodes items)

def memberNodes : List (String × Item) → List (String × Node)
  | [] => []
  | (key, item) :: rest => (key, item.toNode) :: memberNodes rest

def tableNodes : List (List (String × Item)) → List Node
  | [] => []
  | members :: rest => .named (memberNodes members) :: tableNodes rest

end

/-! ## 2. Building -/

namespace Members

/-- The item under a key. -/
def get? (m : Members) (key : String) : Option Item := List.lookup key m

/-- The members with another item under a key. -/
def set (m : Members) (key : String) (item : Item) : Members :=
  if (m.get? key).isSome then m.map fun e => if e.1 = key then (key, item) else e
  else m ++ [(key, item)]

/-- Changes the table at a path. Missing tables on the path are made, by a
dotted key or by a header as `dotted` says. A dotted key does not pass
through a table that has a header. `change` is told whether a dotted key
made the table it gets. -/
def descend? (dotted : Bool) (change : Bool → Members → Option Members) :
    Bool → List String → Members → Option Members
  | isDotted, [], m => change isDotted m
  | _, key :: path, m =>
      match m.get? key with
      | none =>
          (descend? dotted change dotted path []).map fun inner =>
            m.set key (.table true dotted inner)
      | some (.table implied isDotted inner) =>
          if dotted && !implied then none
          else
            (descend? dotted change isDotted path inner).map fun inner =>
              m.set key (.table implied isDotted inner)
      | some (.tables items) =>
          match items.getLast? with
          | none => none
          | some last =>
              (descend? dotted change false path last).map fun last =>
                m.set key (.tables (items.dropLast ++ [last]))
      | some (.value _) => none

/-- Adds a value under a key that may be dotted. The key must be new, and
the table it goes into must have been made in the same way. -/
def insert? (m : Members) (path : List String) (key : String) (value : Node) : Option Members :=
  descend? true
    (fun isDotted inner =>
      if isDotted == path.isEmpty || (inner.get? key).isSome then none
      else some (inner.set key (.value value)))
    false path m

end Members

/-! ## 3. Documents -/

/-- A document being read: the tables that are complete, and the one whose
keys are being read. -/
structure Draft where
  root : Members
  /-- The header of the current table; empty before the first header. -/
  path : List String
  /-- The header is a repeated one. -/
  repeated : Bool
  current : Members

namespace Draft

def empty : Draft := ⟨[], [], false, []⟩

/-- The last part of a header, after the way to it. -/
def splitPath? (path : List String) : Option (List String × String) :=
  path.getLast?.map (path.dropLast, ·)

/-- Adds a table to those of a repeated header. -/
def pushTable? (key : String) (table : Members) (parent : Members) : Option Members :=
  match parent.get? key with
  | none => some (parent.set key (.tables [table]))
  | some (.tables items) => some (parent.set key (.tables (items ++ [table])))
  | some _ => none

/-- Adds the table of a header. -/
def putTable? (key : String) (table : Members) (parent : Members) : Option Members :=
  if (parent.get? key).isSome then none else some (parent.set key (.table false false table))

/-- All tables, with the current one among them. -/
def close? (d : Draft) : Option Members :=
  match splitPath? d.path with
  | none => some d.current
  | some (way, key) =>
      Members.descend? false
        (fun _ parent =>
          if d.repeated then pushTable? key d.current parent else putTable? key d.current parent)
        false way d.root

/-- What a header finds under its last key: the members of a table that was
only implied, and nothing of a table that is new. -/
def implied? : Option Item → Option Members
  | none => some []
  | some (.table true false members) => some members
  | some _ => none

/-- The items under a key are those of a repeated header, or there are none
yet. -/
def isRepeatable : Option Item → Bool
  | none | some (.tables _) => true
  | some _ => false

/-- The item at the end of a path. Missing tables on the way are made. -/
def find? (way : List String) (key : String) (root : Members) :
    Option (Option Item × Members) := do
  let root ← Members.descend? false (fun _ m => some m) false way root
  let rec look : List String → Members → Option Item
    | [], m => m.get? key
    | k :: way, m =>
        match m.get? k with
        | some (.table _ _ inner) => look way inner
        | some (.tables items) => (items.getLast?).bind (look way)
        | _ => none
  some (look way root, root)

/-- Starts the table of a header. -/
def openTable? (d : Draft) (path : List String) : Option Draft := do
  let root ← d.close?
  let (way, key) ← splitPath? path
  let (found, root) ← find? way key root
  let members ← implied? found
  let root ← Members.descend? false (fun _ m => some (m.filter (·.1 != key))) false way root
  some ⟨root, path, false, members⟩

/-- Starts one more table of a repeated header. -/
def openItem? (d : Draft) (path : List String) : Option Draft := do
  let root ← d.close?
  let (way, key) ← splitPath? path
  let (found, root) ← find? way key root
  if isRepeatable found then some ⟨root, path, true, []⟩ else none

/-- Adds a value to the current table. -/
def insert? (d : Draft) (path : List String) (key : String) (value : Node) : Option Draft :=
  (d.current.insert? path key value).map fun current => { d with current }

end Draft

end DataVault.Toml
