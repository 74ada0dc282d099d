import Visibility.Files.Path
import Visibility.Ordered.Dict

set_option autoImplicit false
set_option relaxedAutoImplicit false

/-!
Trees of files, directories and symbolic links.

A place in a tree is the list of names from the root to it.  A path is followed to a place step by
step, through at most 40 links.
-/

namespace Visibility

inductive FileNode where
  /-- A file; one that holds no text has none. -/
  | file (text : Option String)
  | directory
  | link (target : Path)
deriving DecidableEq, Repr

/-- Names from the root on. -/
abbrev FilePlace := List String

structure FileTree where
  /-- What is there, in the order in which directories are listed. -/
  nodes : List (FilePlace × FileNode) := []
  workingDirectory : FilePlace := []

namespace FileTree

/-- What is at a place; the root is always a directory. -/
def node? (tree : FileTree) (place : FilePlace) : Option FileNode :=
  if place.isEmpty then some .directory else tree.nodes.lookup place

def isDirectoryAt (tree : FileTree) (place : FilePlace) : Bool :=
  tree.node? place = some .directory

/-- Takes the steps of a path from a place.  At a link, `follow?` takes its steps and those that are
left, from where they start. -/
def advance? (tree : FileTree) (follow? : FilePlace → List String → Option FilePlace)
    (place : FilePlace) : List String → Option FilePlace
  | [] => some place
  | step :: rest =>
    if !tree.isDirectoryAt place then none
    else if step = "" ∨ step = "." then tree.advance? follow? place rest
    else if step = ".." then tree.advance? follow? place.dropLast rest
    else
      match tree.node? (place ++ [step]) with
      | none => none
      | some (.link target) =>
        follow? (if Path.isAbsolute target then [] else place) (Path.parts target ++ rest)
      | some _ => tree.advance? follow? (place ++ [step]) rest

/-- The place that the steps of a path lead to, through at most `links` links. -/
def resolve? (tree : FileTree) : Nat → FilePlace → List String → Option FilePlace
  | 0 => tree.advance? fun _ _ => none
  | links + 1 => tree.advance? (tree.resolve? links)

/-- The place of what a path names, links followed. -/
def locate? (tree : FileTree) (path : Path) : Option FilePlace :=
  if path.isEmpty then none
  else
    let start := if Path.isAbsolute path then [] else tree.workingDirectory
    tree.resolve? 40 start (Path.parts path)

def find? (tree : FileTree) (path : Path) : Option FileNode :=
  (tree.locate? path).bind tree.node?

def isDirectory (tree : FileTree) (path : Path) : Bool :=
  tree.find? path = some .directory

def isFile (tree : FileTree) (path : Path) : Bool :=
  match tree.find? path with
  | some (.file _) => true
  | _ => false

def readText? (tree : FileTree) (path : Path) : Option String :=
  match tree.find? path with
  | some (.file text) => text
  | _ => none

def names (tree : FileTree) (place : FilePlace) : List String :=
  tree.nodes.filterMap fun (other, _) =>
    match other.getLast? with
    | some name => if other.dropLast = place then some name else none
    | none => none

/-- Puts a node at a place, with the directories on the way to it. -/
def insert (tree : FileTree) (place : FilePlace) (node : FileNode) : FileTree :=
  let onTheWay := ((List.range place.length).map place.take).filter fun directory =>
    (tree.node? directory).isNone
  { tree with
    nodes := Assoc.put place node
      (onTheWay.foldl (fun nodes directory => Assoc.put directory .directory nodes) tree.nodes) }

/-- Writes a file; a path through links is followed as far as it leads somewhere. -/
def write (tree : FileTree) (path : Path) (text : Option String) : FileTree :=
  let place := match tree.locate? path with
    | some place => place
    | none =>
      let steps := (Path.parts path).filter fun part => part ≠ "" ∧ part ≠ "."
      match steps.getLast?, tree.locate? (Path.parent path) with
      | some name, some directory => directory ++ [name]
      | _, _ => if Path.isAbsolute path then steps else tree.workingDirectory ++ steps
  tree.insert place (.file text)

end FileTree

end Visibility
