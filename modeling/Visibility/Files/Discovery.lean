import Visibility.Files.Tree

set_option autoImplicit false
set_option relaxedAutoImplicit false

/-!
The mapping files below a directory.

Directories are visited once each, by the place their path leads to, so that links that lead back do
no harm.
-/

namespace Visibility

inductive MappingFormat where
  | yaml
  | xml
deriving DecidableEq, Repr

def MappingFormat.ofPath? (path : Path) : Option MappingFormat :=
  match Path.extension? path with
  | some "yaml" => some yaml
  | some "yml" => some yaml
  | some "xml" => some xml
  | _ => none

namespace FileTree

/-- The mapping files found so far, and the places of the directories visited. -/
structure Walk where
  files : List Path := []
  visited : List FilePlace := []

/-- Visits a directory and those in it, at most `fuel` deep. -/
def walk (tree : FileTree) : Nat → Path → Walk → Walk
  | 0, _, found => found
  | fuel + 1, directory, found =>
    match tree.locate? directory with
    | none => found
    | some place =>
      if place ∈ found.visited then found
      else
        let found := { found with visited := found.visited ++ [place] }
        (tree.names place).foldl (fun found name =>
          let path := Path.join directory name
          if tree.isDirectory path then tree.walk fuel path found
          else if tree.isFile path && (MappingFormat.ofPath? path).isSome then
            { found with files := found.files ++ [path] }
          else found) found

/-- The mapping files below a directory in the order of their paths; none if there is no such
directory. -/
def discover (tree : FileTree) (directory : Path) : List Path :=
  if tree.isDirectory directory then
    (tree.walk (tree.nodes.length + 1) directory {}).files.mergeSort Path.le
  else []

end FileTree

end Visibility
