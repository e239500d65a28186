/-
DataVault.Yaml.Expand — following the references of a document.

`expand?` makes a YAML document into a tree without references, as far as a
shape asks for it, and refuses one that does not have the shape. What
nothing asks for is not followed, so a circle of references does no harm
there. Elsewhere two limits end every circle: lists and tables are at most
128 levels deep, and the references that are followed are at most a hundred
times as many as the signs of the document.
-/
import DataVault.Document.Shape
import DataVault.Yaml.Resolve
import DataVault.Yaml.Tree

namespace DataVault.Yaml

open DataVault.Document

/-! ## 1. Steps -/

/-- A step that may follow references; the state is how many more may be
followed. -/
abbrev Expansion := StateT Nat Option

/-- A value, where there is one. -/
def given {α : Type} (a : Option α) : Expansion α := fun left => a.map (·, left)

/-- Takes one from the references that may be followed. -/
def spend : Expansion Unit := fun left =>
  match left with
  | 0 => none
  | left + 1 => some ((), left)

/-! ## 2. Shapes -/

/-- A list or table may be read as the shape asks: one with an application's
label cannot tell its type. -/
def mayRead (shape : Shape) (tag : Option Tag) : Bool :=
  match shape with
  | .free | .tagged _ => !(tag.map Tag.isLabel).getD false
  | _ => true

/-- The items of a list with their shapes. -/
def itemShapes? (shape : Shape) (items : List Tree) : Option (List (Shape × Tree)) :=
  match shape, items with
  | .list item, items => some (items.map (item, ·))
  | .free, items => some (items.map (.free, ·))
  | .tagged _, first :: rest => some ((.single, first) :: rest.map (.free, ·))
  | _, _ => none

/-- The shape of a member with the given key. -/
def memberShape? (shape : Shape) (key : Key) : Option Shape :=
  match shape, key with
  | .record fields, .text name => some (.ofMember fields name)
  | .free, _ => some .free
  | .tagged name, key => some (if key = .text name then .single else .free)
  | _, _ => none

/-- What a scalar is read as. -/
def scalarAt? (shape : Shape) (tag : Option Tag) (style : Style) (text : String) :
    Option Node :=
  match shape with
  | .free =>
      (freeKey? tag style text).map fun
        | .text s => .scalar (.ofText s)
        | _ => .scalar .other
  | _ => some (.scalar (scalarOf tag style text))

/-- What a scalar is called as a key. The fields of a record have names. -/
def keyAt? (shape : Shape) (tag : Option Tag) (style : Style) (text : String) : Option Key :=
  match shape with
  | .record _ => some (.text text)
  | _ => freeKey? tag style text

/-! ## 3. Documents -/

namespace Written

/-- The node at a place, which is never a reference. -/
def follow (w : Written) : Tree → Expansion Tree
  | .reference number => do
      spend
      given w.anchored[number]?
  | .anchored _ t => pure t
  | t => pure t

/-- The key of a member; `inner` reads a key that is a list or a table. -/
def keyOf (w : Written) (inner : Shape → Tree → Expansion Node) (shape : Shape) (t : Tree) :
    Expansion Key := do
  match ← w.follow t, shape with
  | .scalar tag style text, _ => given (keyAt? shape tag style text)
  | _, .record _ => given none
  | t, _ => do
      let _ ← inner .free t
      return .other

/-- One level of a tree; `inner` reads the levels below it, if there may be
any. -/
def level (w : Written) (inner? : Option (Shape → Tree → Expansion Node)) (shape : Shape)
    (t : Tree) : Expansion Node := do
  match ← w.follow t with
  | .scalar tag style text => given (scalarAt? shape tag style text)
  | .list tag items => do
      let inner ← given (inner?.filter fun _ => mayRead shape tag)
      let items ← given (itemShapes? shape items)
      return .list (← items.mapM fun (s, item) => inner s item)
  | .table tag members => do
      let inner ← given (inner?.filter fun _ => mayRead shape tag)
      let members ← members.mapM fun (key, value) => do
        let key ← w.keyOf inner shape key
        return (key, ← inner (← given (memberShape? shape key)) value)
      return .table members
  | _ => given none

/-- The node at a place, as far as the shape asks for it, where lists and
tables may be so many levels deep. -/
def expand (w : Written) : Nat → Shape → Tree → Expansion Node
  | _, .ignored, _ => pure .unreadable
  | 0, shape, t => w.level none shape t
  | depth + 1, shape, t => w.level (some (w.expand depth)) shape t

/-- The greatest depth of lists and tables. -/
def maxDepth : Nat := 128

/-- How many references may be followed for each sign. -/
def maxUses : Nat := 100

/-- The document without references, as far as the shape asks for it. -/
def expand? (w : Written) (shape : Shape) : Option Node :=
  ((w.expand maxDepth shape w.root).run (maxUses * w.root.size)).map Prod.fst

end Written

end DataVault.Yaml
