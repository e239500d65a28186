/-
DataVault.Files.Tree — files and directories as a value.

A `Tree` holds what is known of a file system: the entries at locations
relative to a working directory. A path is walked from left to right, and
every step goes through a directory that exists; names and paths that are
too long lead nowhere. The operations are those of an ordinary file system
for a user who may read, list and write everywhere; that a file is read-only
is recorded, and heeded only by those who ask. A tree has no entry that may
not be read and no directory that may not be listed.
-/
import DataVault.Files.Path

namespace DataVault.Files

/-! ## 1. Locations -/

/-- The names on the way to an entry. The working directory is the empty
list, the directories above it are lists of `..`, and absolute locations
start with `/`. -/
abbrev Location := List String

namespace Location

/-- A directory that is always there. -/
def isAnchor (l : Location) : Bool := l == ["/"] || l.all (· == "..")

/-- The directory that holds an entry. -/
def parent (l : Location) : Location :=
  if l = ["/"] then l else if l.isAnchor then l ++ [".."] else l.dropLast

end Location

/-! ## 2. Entries -/

inductive Entry where
  | directory (readOnly : Bool)
  | file (content : String) (readOnly : Bool)
  deriving DecidableEq

namespace Entry

def isDirectory : Entry → Bool
  | directory _ => true
  | file _ _ => false

def readOnly : Entry → Bool
  | directory r | file _ r => r

/-- The entry without permission to write. -/
def protect : Entry → Entry
  | directory _ => directory true
  | file content _ => file content true

end Entry

/-- Entries by their locations, each location once. -/
structure Tree where
  entries : List (Location × Entry)

namespace Tree

def empty : Tree := ⟨[]⟩

/-- The entry at a location. -/
def get? (t : Tree) (l : Location) : Option Entry :=
  if l.isAnchor then some (.directory false) else t.entries.lookup l

/-- The tree with an entry at a location. -/
def set (t : Tree) (l : Location) (e : Entry) : Tree :=
  if (t.entries.lookup l).isSome then
    ⟨t.entries.map fun old => if old.1 = l then (l, e) else old⟩
  else ⟨t.entries ++ [(l, e)]⟩

/-- The tree without the entry at a location. -/
def erase (t : Tree) (l : Location) : Tree := ⟨t.entries.filter (·.1 != l)⟩

/-- The names in a directory, with their entries. -/
def children (t : Tree) (l : Location) : List (String × Entry) :=
  t.entries.filterMap fun (at_, e) =>
    if !at_.isEmpty ∧ at_.dropLast = l then at_.getLast?.map (·, e) else none

/-! ## 3. Paths -/

/-- Where a path leads. -/
inductive Way where
  /-- To a location in a directory that is there. -/
  | toPlace (l : Location)
  /-- Nowhere: a directory on the way is missing. -/
  | missing
  /-- Nowhere: what stands on the way is a file, or the path is not one that
  a file system takes. -/
  | blocked

/-- The longest name of an entry, in octets. -/
def maxNameSize : Nat := 255

/-- Where the pieces of a path lead from a location. -/
def walk (t : Tree) (l : Location) : List String → Way
  | [] => .toPlace l
  | piece :: rest =>
      match t.get? l with
      | none => .missing
      | some (.file _ _) => .blocked
      | some (.directory _) =>
          if piece.isEmpty ∨ piece = "." then t.walk l rest
          else if piece = ".." then t.walk l.parent rest
          else if maxNameSize < piece.utf8ByteSize then .blocked
          else t.walk (l ++ [piece]) rest

/-- Where a path leads, in pieces. The empty path leads nowhere. -/
def way (t : Tree) (path : String) (pieces : List String) : Way :=
  if !Path.isAdmissible path then .blocked
  else
    match pieces with
    | [] | [""] => .missing
    | "" :: rest => t.walk ["/"] rest
    | pieces => t.walk [] pieces

/-- Where a path leads, which need not exist itself. -/
def locate? (t : Tree) (path : String) : Option Location :=
  match t.way path (Path.pieces path) with
  | .toPlace l => some l
  | .missing | .blocked => none

/-- The entry at a path. -/
def at? (t : Tree) (path : String) : Option Entry := (t.locate? path).bind t.get?

def exists? (t : Tree) (path : String) : Bool := (t.at? path).isSome

/-- There is a directory at a path. -/
def isDirectory (t : Tree) (path : String) : Bool :=
  ((t.at? path).map Entry.isDirectory).getD false

/-- The content of the file at a path. -/
def read? (t : Tree) (path : String) : Option String :=
  match t.at? path with
  | some (.file content _) => some content
  | _ => none

def isFile (t : Tree) (path : String) : Bool := (t.read? path).isSome

/-- There is something at a path, and it is read-only. -/
def isReadOnly (t : Tree) (path : String) : Bool := ((t.at? path).map Entry.readOnly).getD false

/-- Writes a file at a path. Its directory has to exist, and a directory is
not replaced. A file that is there keeps its permissions. -/
def write? (t : Tree) (path content : String) : Option Tree := do
  let l ← t.locate? path
  match t.get? l with
  | some (.directory _) => none
  | some (.file _ readOnly) => some (t.set l (.file content readOnly))
  | none => some (t.set l (.file content false))

/-- What comes of making one directory. -/
inductive Making where
  | made (t : Tree)
  /-- The directory that it belongs in is missing. -/
  | missing
  /-- Something is there already, or stands on the way. -/
  | blocked

/-- The pieces of a path, where a slash at the end does not ask for a
directory that is there. -/
def piecesToMake (path : String) : List String :=
  match ((Path.pieces path).reverse.dropWhile String.isEmpty).reverse with
  | [] => Path.pieces path
  | pieces => pieces

/-- Makes one directory. -/
def makeOne (t : Tree) (path : String) : Making :=
  match t.way path (piecesToMake path) with
  | .missing => .missing
  | .blocked => .blocked
  | .toPlace l => if (t.get? l).isSome then .blocked else .made (t.set l (.directory false))

/-- Makes the directory at a path, and the one above it first where that is
missing. The components of the path are given last to first. What was made
on the way to a failure stays. -/
def makeFrom (t : Tree) (path : String) : List Component → Bool × Tree
  | [] => (true, t)
  | _ :: above =>
      match t.makeOne path with
      | .made t => (true, t)
      | .blocked => (t.isDirectory path, t)
      | .missing =>
          match t.makeFrom (Path.ofComponents above.reverse) above with
          | (false, t) => (false, t)
          | (true, t) =>
              match t.makeOne path with
              | .made t => (true, t)
              | .missing | .blocked => (t.isDirectory path, t)

/-- Makes a directory and all directories above it; says whether it is there
in the end. A path such as `a/b/.` fails where `b` is missing: the path
above it is `a`. -/
def makeDirectory (t : Tree) (path : String) : Bool × Tree :=
  t.makeFrom path (Path.components path).reverse

/-- Writes a file at a path, and makes the directories above it. Nothing is
written where that cannot be done. -/
def create (t : Tree) (path content : String) : Tree :=
  let (_, t) := t.makeDirectory (Path.above path)
  (t.write? path content).getD t

/-- A tree of files, given by their paths. -/
def ofFiles (files : List (String × String)) : Tree :=
  files.foldl (fun t file => t.create file.1 file.2) empty

/-- Removes the file at a path. -/
def remove? (t : Tree) (path : String) : Option Tree := do
  let l ← t.locate? path
  match t.get? l with
  | some (.file _ _) => some (t.erase l)
  | _ => none

/-- Makes the entry at a path read-only. -/
def protect? (t : Tree) (path : String) : Option Tree := do
  let l ← t.locate? path
  let e ← t.get? l
  some (t.set l e.protect)

/-- The files below the working directory, with their paths. -/
def files (t : Tree) : List (String × String) :=
  t.entries.filterMap fun (l, e) =>
    match e with
    | .file content _ =>
        if l.head? = some ".." ∨ l.head? = some "/" then none
        else some (String.intercalate "/" l, content)
    | .directory _ => none

end Tree

end DataVault.Files
