/-
DataVault.Files.Changes — what turns one tree into another.

A program that works on a tree in memory leaves a new one behind.
`Tree.changes` lists what has to be done to a file system that looked like
the old tree to make it look like the new one: files that are gone are
removed, and directories and files that are new or different are made, in
the order of the new tree, in which a directory stands before what is in
it.
-/
import DataVault.Files.Tree

namespace DataVault.Files

inductive Change where
  | remove (path : String)
  | makeDirectory (path : String)
  | write (path content : String)
  deriving DecidableEq

/-- A path that leads to a location from the working directory. -/
def Location.path : Location → String
  | "/" :: names => "/" ++ String.intercalate "/" names
  | names => String.intercalate "/" names

namespace Tree

/-- The removal of a file that is not in the new tree. -/
def removal? (new : Tree) : Location × Entry → Option Change
  | (l, .file _ _) => if (new.get? l).isNone then some (.remove l.path) else none
  | (_, .directory _) => none

/-- What makes an entry of the new tree, where the old tree does not have
it. -/
def making? (old : Tree) : Location × Entry → Option Change
  | (l, .directory _) => if (old.get? l).isNone then some (.makeDirectory l.path) else none
  | (l, .file content _) =>
      match old.get? l with
      | some (.file before _) => if before = content then none else some (.write l.path content)
      | _ => some (.write l.path content)

/-- What turns the old tree into the new one. -/
def changes (old new : Tree) : List Change :=
  old.entries.filterMap new.removal? ++ new.entries.filterMap old.making?

end Tree

end DataVault.Files
