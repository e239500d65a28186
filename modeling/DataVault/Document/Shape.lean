/-
DataVault.Document.Shape — what a reader asks of a document.

A reader knows beforehand what it will look at. `Shape` says so, node by
node: what is passed over, what is read as one value whose type is known,
and what has to tell its type by itself. A notation in which looking at a
node costs something, because nodes refer to one another, can so do the
work that a reader needs, and no more.
-/
import DataVault.Document.Node

namespace DataVault.Document

inductive Shape where
  /-- Nothing looks at the node or at anything in it. -/
  | ignored
  /-- A single value whose type is known: a text, a truth value, a name. -/
  | single
  /-- The node and everything in it tell their types by themselves. -/
  | free
  | list (item : Shape)
  /-- A table of fields, each with its spellings. Other members are passed
  over. -/
  | record (fields : List (List String × Shape))
  /-- A single value decides what the rest means, and the rest is free. In a
  table it is the member of this name, in a list the first item. -/
  | tagged (name : String)

namespace Shape

/-- A record of fields with the given spellings, whose shapes follow in the
same order. -/
def fields (spellings : List (List String)) (shapes : List Shape) : Shape :=
  record (spellings.zip shapes)

/-- The shape of a record's member. -/
def ofMember (fields : List (List String × Shape)) (name : String) : Shape :=
  ((fields.find? fun f => f.1.contains name).map Prod.snd).getD ignored

end Shape

end DataVault.Document
