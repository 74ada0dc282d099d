import Mathlib.Logic.Relation
import Visibility.Proofs.Files.Ways

set_option autoImplicit false
set_option relaxedAutoImplicit false

/-!
What is found below a directory, whatever links there are.

The main statement is that a walk enters the directories that can be reached, and that its files are
the mapping files in them, each by one path.  An entry that is a link may lead on well enough by
itself and still be out of reach behind the links on the way to it; such an entry is passed over.
-/

namespace Visibility.FileTree

variable {tree : FileTree} {start path : Path} {place : FilePlace}

def Opens (tree : FileTree) (place next : FilePlace) : Prop :=
  ∃ name ∈ tree.names place, tree.target? place name = some next ∧ tree.isDirectoryAt next

def Reaches (tree : FileTree) : FilePlace → FilePlace → Prop :=
  Relation.ReflTransGen tree.Opens

/-- A chain of entries from a path on: the directories that it goes through, none of them twice, the
path that it spells, and the place where it leads. -/
inductive Trail (tree : FileTree) (start : Path) : List FilePlace → Path → FilePlace → Prop
  | start {place : FilePlace} (located : tree.locate? start = some place) :
      Trail tree start [] start place
  | entry {passed : List FilePlace} {path : Path} {place target : FilePlace} {name : String}
      (before : Trail tree start passed path place) (new : place ∉ passed)
      (listed : name ∈ tree.names place) (leads : tree.target? place name = some target) :
      Trail tree start (place :: passed) (Path.join path name) target

namespace Trail

variable {passed : List FilePlace}

theorem reaches {origin : FilePlace} (trail : tree.Trail start passed path place)
    (located : tree.locate? start = some origin) (directory : tree.isDirectoryAt place) :
    tree.Reaches origin place := by
  induction trail with
  | start here =>
    cases located.symm.trans here
    exact .refl
  | @entry _ _ above _ name before new listed leads ih =>
    have open_ : tree.isDirectoryAt above := by
      by_contra closed
      rw [target?, resolve?, advance?, if_pos (by simpa using closed)] at leads
      contradiction
    exact (ih open_).tail ⟨name, listed, leads, directory⟩

end Trail

theorem Way.trail {above : List (Path × FilePlace)} (sound : tree.IsSound)
    (way : tree.Way start above path place) :
    tree.Trail start (above.map Prod.snd) path place := by
  induction way with
  | start located directory => exact .start located
  | entry before listed located directory new ih =>
    exact ih.entry before.not_mem listed
      (target?_of_locate?_join (sound.isName listed) before.located located)

section Linked

def linkedTree : FileTree :=
  ((((({} : FileTree).insert ["p", "b.yaml"] (.file (some ""))).insert ["p", "loop"]
    (.link "/p")).insert ["p", "gone.yaml"] (.link "none")).insert ["p", "a"] (.link "/q")).insert
      ["q", "c.xml"] (.file (some ""))

theorem isSound_linkedTree : linkedTree.IsSound :=
  ((((isSound_empty.insert (by decide) _).insert (by decide) _).insert (by decide) _).insert
    (by decide) _).insert (by decide) _

theorem discover_linkedTree : linkedTree.discover "/p" = ["/p/a/c.xml", "/p/b.yaml"] := by
  have walked : (linkedTree.walk (linkedTree.nodes.length + 1) "/p" {}).files =
      ["/p/b.yaml", "/p/a/c.xml"] := by
    decide +kernel
  have above : Path.le "/p/b.yaml" "/p/a/c.xml" = false := by decide +kernel
  rw [discover, if_pos (by decide +kernel), walked]
  simp [List.mergeSort, List.MergeSort.Internal.splitInTwo, above]

end Linked

end Visibility.FileTree
