import Visibility.Text.Split

set_option autoImplicit false
set_option relaxedAutoImplicit false

/-!
Paths of files as they are written, with `/` between their parts.
-/

namespace Visibility

abbrev Path := String

namespace Path

def isAbsolute (path : Path) : Bool :=
  path.toList.head? = some '/'

/-- What stands between the separators. -/
def parts (path : Path) : List String :=
  (Text.splitAt (· = '/') path.toList).map String.ofList

def ofParts (parts : List String) : Path :=
  "/".intercalate parts

/-- A path below another one; an absolute path stays as it is. -/
def join (base path : Path) : Path :=
  if isAbsolute path || base.isEmpty then path
  else if base.toList.getLast? = some '/' then base ++ path
  else base ++ "/" ++ path

def rebase (base path : Path) : Path :=
  if isAbsolute path then path else join base path

/-- A part that is skipped wherever it stands but at the start of a relative path. -/
private def isIdle (part : String) : Bool :=
  part.isEmpty || part = "."

private def dropIdle : List String → List String
  | [] => []
  | [first] => if first.isEmpty then [] else [first]
  | part :: rest => if isIdle part then dropIdle rest else part :: rest

def parent (path : Path) : Path :=
  let parts := dropIdle ((dropIdle (parts path).reverse).drop 1)
  if parts.isEmpty then if isAbsolute path then "/" else "" else ofParts parts.reverse

/-- A part of a path as it is compared: the root, the current directory, the parent directory, then
names. -/
private def key (part : String) : Nat × String :=
  if part = "." then (1, "") else if part = ".." then (2, "") else (3, part)

/-- What paths are compared by: their parts without those that are skipped. -/
def keys (path : Path) : List (Nat × String) :=
  match parts path with
  | [] => []
  | first :: rest =>
    let start :=
      if isAbsolute path then [(0, "")] else if first.isEmpty then [] else [key first]
    start ++ (rest.filter fun part => !isIdle part).map key

def keysLe : List (Nat × String) → List (Nat × String) → Bool
  | [], _ => true
  | _ :: _, [] => false
  | (rank, name) :: rest, (otherRank, otherName) :: others =>
    if rank ≠ otherRank then rank < otherRank
    else if name ≠ otherName then name < otherName
    else keysLe rest others

def le (first second : Path) : Bool :=
  keysLe (keys first) (keys second)

def fileName? (path : Path) : Option String :=
  match ((parts path).filter fun part => !isIdle part).getLast? with
  | some ".." => none
  | name? => name?

/-- What follows the last dot of the last name, unless nothing stands before that dot. -/
def extension? (path : Path) : Option String := do
  let name ← fileName? path
  let (stem, extension) ← Text.cutLast? "." name
  if stem.isEmpty then none else some extension

end Path

end Visibility
