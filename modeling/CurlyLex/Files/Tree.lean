import CurlyLex.Files.Basic
import CurlyLex.Text.Utf8

/-!
# A tree of files

Finitely many files and directories, the places where they stand, and the rules by which a path
leads to one of them.

* `Place`              the root, a directory above, or a name under another place;
* `Place.ofPath`       where a path leads;
* `FileTree.ofPaths`   the tree with the given files, and the directories on the way to them;
* `FileTree.walk`      follows the names of a path, one by one, through a tree;
* `FileTree.files`     opening and reading any path.

A path is cut at its slashes.  An empty name and a single point stay where they are, two points go
one directory up, and any other name leads to what stands under it; each of these needs a
directory to start from, so also a slash at the very end.  The same rules lead a file to its place
when the tree is made.  The root and the directories above the working directory always exist;
elsewhere there is what the tree was made with.
-/

namespace CurlyLex

inductive Place where
  /-- where the paths that begin with a slash start -/
  | root
  /-- that many directories above the working directory, where the other paths start -/
  | above (levels : Nat)
  | under (here : Place) (name : Text)
  deriving DecidableEq, Repr

namespace Place

/-- the names in a path, between its slashes -/
def names (path : Text) : List Text := path.splitOn '/'

def start (path : Text) : Place := if path.head? = some '/' then root else above 0

/-- one directory up; the root is above itself -/
def parent : Place → Place
  | root => root
  | above levels => above (levels + 1)
  | under here _ => here

/-- where a name of a path leads -/
def onward (here : Place) (name : Text) : Place :=
  if name = [] ∨ name = ['.'] then here
  else if name = ['.', '.'] then here.parent
  else under here name

/-- where a path leads -/
def ofPath (path : Text) : Place := (names path).foldl onward (start path)

/-- the places from which the names of a path go onward, one for each name -/
def passed (here : Place) : List Text → List Place
  | [] => []
  | name :: rest => here :: passed (here.onward name) rest

end Place

inductive Node where
  | file (bytes : Bytes)
  | directory
  | missing
  deriving DecidableEq, Repr

structure FileTree where
  /-- the places of the files, with their bytes, and of the directories; of two entries for one
  place, the first counts -/
  entries : List (Place × Option Bytes)

namespace FileTree

/-- puts a file, or a directory where there are no bytes, and the directories on the way to it -/
def put (t : FileTree) (path : Text) (content : Option Bytes) : FileTree :=
  ⟨(Place.ofPath path, content)
    :: ((Place.start path).passed (Place.names path)).map (fun here => (here, none))
    ++ t.entries⟩

/-- the tree with the given files, and directories where there are no bytes -/
def ofPaths (paths : List (Text × Option Bytes)) : FileTree :=
  paths.foldl (fun t p => t.put p.1 p.2) ⟨[]⟩

/-- what stands at a place -/
def node (t : FileTree) : Place → Node
  | .root => .directory
  | .above _ => .directory
  | .under here name =>
    match t.entries.find? fun e => e.1 == .under here name with
    | some (_, some bytes) => .file bytes
    | some (_, none) => .directory
    | none => .missing

/-- the longest name, in bytes -/
def longestName : Nat := 255

/-- the longest path, in bytes -/
def longestPath : Nat := 4095

def byteLength (t : Text) : Nat := (Utf8.encode t).length

/-- follows the names of a path from a place -/
def walk (t : FileTree) (here : Place) : List Text → Access
  | [] =>
    match t.node here with
    | .file bytes => .bytes bytes
    | .directory => .unread .isDirectory
    | .missing => .unopened .notFound
  | name :: rest =>
    match t.node here with
    | .file _ => .unopened .notDirectory
    | .missing => .unopened .notFound
    | .directory =>
      if longestName < byteLength name then .unopened .nameTooLong
      else t.walk (here.onward name) rest

/-- opens and reads a path -/
def files (t : FileTree) : Files := fun path =>
  if path.contains (Char.ofNat 0) then .unopened .zeroInPath
  else if path.isEmpty then .unopened .notFound
  else if longestPath < byteLength path then .unopened .nameTooLong
  else t.walk (Place.start path) (Place.names path)

end FileTree

end CurlyLex
