import BuildBlocks.Host

/-!
# Trees of files

A tree of files as a value.  Paths are followed name by name: every name but the last has to
lead to a directory, `.` stays and `..` goes up.  A path that is too long leads nowhere, and no
file is made under a name that is too long.  `FileTree.host` makes a tree a host for commands
that run in one of its directories.
-/
namespace BuildBlocks
open Text

/-- What stands at a place of a tree. -/
inductive FileNode where
  | directory
  /-- A file with its text, or without one when its bytes are no text. -/
  | file (text : Option Text)
  deriving DecidableEq, Repr

/-- A place in a tree: the names that lead to it from the root. -/
abbrev Place := List Text

/-- A tree of files: what stands at each place.  The root is always a directory. -/
structure FileTree where
  nodes : List (Place × FileNode)
  deriving DecidableEq, Repr

namespace FileTree

/-- The tree with nothing but its root. -/
def empty : FileTree :=
  ⟨[]⟩

/-- What stands at a place. -/
def at? (tree : FileTree) (place : Place) : Option FileNode :=
  if place.isEmpty then some .directory
  else (tree.nodes.find? fun e => e.1 = place).map Prod.snd

/-- The tree with something else at a place other than the root. -/
def put (tree : FileTree) (place : Place) (node : FileNode) : FileTree :=
  ⟨(place, node) :: tree.nodes.filter fun e => e.1 ≠ place⟩

/-- The place that a name leads to from a directory. -/
def follow (place : Place) (name : Text) : Place :=
  if name = [] ∨ name = ['.'] then place
  else if name = ['.', '.'] then place.dropLast
  else place ++ [name]

/-- The greatest number of bytes in a name that can be given. -/
def nameLimit : Nat :=
  255

/-- Whether nothing can be made at a place because of its name. -/
def isOverlong (place : Place) : Bool :=
  place.getLast?.any fun name => nameLimit < byteLength name

/-- What is wrong with a place at which nothing stands. -/
def absence (place : Place) : FileError :=
  if isOverlong place then .nameTooLong else .notFound

/-- The place that names lead to from a place, which has to be a directory if there are any.
Nothing need stand at the last place. -/
def walk (tree : FileTree) (place : Place) : List Text → Except FileError Place
  | [] => .ok place
  | name :: names =>
    match tree.at? place with
    | some .directory => walk tree (follow place name) names
    | some (.file _) => .error .notDirectory
    | none => .error (absence place)

/-- The greatest number of bytes in a path. -/
def pathLimit : Nat :=
  4095

/-- The place that a path leads to from a directory, or from the root if it starts there. -/
def resolve (tree : FileTree) (cwd : Place) (path : Text) : Except FileError Place :=
  if pathLimit < byteLength path then .error .nameTooLong
  else
    match path with
    | [] => .error .notFound
    | '/' :: rest => tree.walk [] (splitOn '/' rest)
    | path => tree.walk cwd (splitOn '/' path)

/-- Whether anything stands at a path. -/
def pathExists (tree : FileTree) (cwd : Place) (path : Text) : Bool :=
  match tree.resolve cwd path with
  | .ok place => (tree.at? place).isSome
  | .error _ => false

/-- The text of the file at a path. -/
def read (tree : FileTree) (cwd : Place) (path : Text) : Except FileError Text :=
  match tree.resolve cwd path with
  | .error e => .error e
  | .ok place =>
    match tree.at? place with
    | none => .error (absence place)
    | some .directory => .error .isDirectory
    | some (.file none) => .error .notText
    | some (.file (some t)) => .ok t

/-- A path without its last name and the slashes behind that. -/
def withoutLastName (path : Text) : Text :=
  ((path.reverse.dropWhile (· = '/')).dropWhile (· ≠ '/')).reverse

/-- Whether a path ends in a slash after a name in a directory: it asks for a directory of that
name, whatever stands in its place. -/
def asksForDirectory (tree : FileTree) (cwd : Place) (path : Text) : Bool :=
  path.getLast? = some '/' && byteLength path ≤ pathLimit &&
    (tree.resolve cwd (withoutLastName path ++ ['.'])).isOk

/-- The tree with a text in the file at a path. -/
def write (tree : FileTree) (cwd : Place) (path content : Text) : Except FileError FileTree :=
  match tree.resolve cwd path with
  | .error e => .error (if tree.asksForDirectory cwd path then .isDirectory else e)
  | .ok place =>
    match tree.at? place with
    | some .directory => .error .isDirectory
    | some (.file _) => .ok (tree.put place (.file (some content)))
    | none =>
      if isOverlong place then .error .nameTooLong
      else .ok (tree.put place (.file (some content)))

/-- A place as a path from the root. -/
def pathOf (place : Place) : Text :=
  '/' :: join ['/'] place

/-- A place and all places above it, from the nearest on. -/
def ancestors (place : Place) : List Place :=
  (List.range (place.length + 1)).map fun n => place.take (place.length - n)

/-- The host on which commands run in the directory `cwd` of a tree. -/
def host (cwd : Place) : Host (StateM FileTree) where
  pathExists path := do return (← get).pathExists cwd path
  read path := do return (← get).read cwd path
  write path content := do
    match (← get).write cwd path content with
    | .ok tree =>
      set tree
      return .ok ()
    | .error e => return .error e
  directories := return (ancestors cwd).map pathOf

end FileTree
end BuildBlocks
