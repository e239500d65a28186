/-
DataVault.Files.Path — paths as text.

A path is kept as it was written, since messages show it that way.
`components` is what it means: repeated slashes, dots between slashes and a
slash at the end mean nothing. Two paths with the same components are the
same path.
-/
import DataVault.Text.Blank
import DataVault.Text.Control

namespace DataVault.Files

open DataVault.Text

inductive Component where
  | root
  /-- A dot at the start of a path. -/
  | here
  | parent
  | normal (name : String)
  deriving DecidableEq

namespace Path

/-- The pieces between slashes. -/
def pieces (path : String) : List String := splitOn '/' path

/-- A piece that means something wherever it stands. -/
def component? (piece : String) : Option Component :=
  if piece.isEmpty ∨ piece = "." then none
  else if piece = ".." then some .parent
  else some (.normal piece)

def components (path : String) : List Component :=
  match pieces path with
  | "" :: second :: rest => .root :: (second :: rest).filterMap component?
  | "." :: rest => .here :: rest.filterMap component?
  | rest => rest.filterMap component?

/-- The last component, if it is a name. -/
def fileName? (path : String) : Option String :=
  match (components path).getLast? with
  | some (.normal name) => some name
  | _ => none

/-- What follows the last dot of a name that does not start with it. -/
def nameExtension? (name : String) : Option String :=
  match (splitOn '.' name).reverse with
  | extension :: first :: rest =>
      if rest.isEmpty ∧ first.isEmpty then none else some extension
  | _ => none

/-- The extension of the file name; empty where there is none. -/
def extension (path : String) : String := ((fileName? path).bind nameExtension?).getD ""

/-- The extension in lower case. -/
def lowerExtension (path : String) : String := lower (extension path)

/-- A path below another one. An absolute path stays as it is. -/
def join (base path : String) : String :=
  if path.toList.head? = some '/' ∨ base.isEmpty then path
  else if base.toList.getLast? = some '/' then base ++ path
  else base ++ "/" ++ path

/-- A component as it is written. -/
def written : Component → String
  | .root => ""
  | .here => "."
  | .parent => ".."
  | .normal name => name

/-- The plainest path with these components. -/
def ofComponents : List Component → String
  | [.root] => "/"
  | components => String.intercalate "/" (components.map written)

/-- The path of the directory that holds an entry: the path without its last
component. -/
def above (path : String) : String := ofComponents (components path).dropLast

/-- A file system takes the path: no character ends it early, and it is not
too long. -/
def isAdmissible (path : String) : Bool := !path.toList.contains '\x00' && path.utf8ByteSize < 4096

/-- Two texts are one path. -/
def same (a b : String) : Bool := components a == components b

end Path

end DataVault.Files
