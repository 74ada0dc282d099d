import Mathlib.Data.List.Nodup
import Visibility.Proofs.Files.Path

set_option autoImplicit false
set_option relaxedAutoImplicit false

/-!
Where paths lead in a tree of files.

A path that a name is joined to leads where the name leads from the place of the path, unless too
many links have been followed on the way there.
-/

namespace Visibility.FileTree

variable {tree : FileTree}

def origin (tree : FileTree) (path : Path) : FilePlace :=
  if Path.isAbsolute path then [] else tree.workingDirectory

/-- Where an entry of a directory leads, its links followed. -/
def target? (tree : FileTree) (place : FilePlace) (name : String) : Option FilePlace :=
  tree.resolve? 40 place [name]

theorem locate?_eq_some_iff {path : Path} {place : FilePlace} :
    tree.locate? path = some place ↔
      path ≠ "" ∧ tree.resolve? 40 (tree.origin path) (Path.parts path) = some place := by
  rw [locate?, origin]
  by_cases empty : path = ""
  · simp [empty]
  · simp [empty]

theorem isDirectory_iff {path : Path} : tree.isDirectory path ↔
    ∃ place, tree.locate? path = some place ∧ tree.isDirectoryAt place := by
  simp [isDirectory, isDirectoryAt, find?, Option.bind_eq_some_iff]

theorem isDirectory_of_locate? {path : Path} {place : FilePlace}
    (located : tree.locate? path = some place) :
    tree.isDirectory path = tree.isDirectoryAt place := by
  rw [isDirectory, find?, located, Option.bind_some, isDirectoryAt]

section Steps

variable {follow? more? : FilePlace → List String → Option FilePlace} {links : Nat}
  {place target : FilePlace} {first rest steps : List String}

theorem advance?_of_follow? (grows : ∀ {place steps target},
      follow? place steps = some target → more? place steps = some target)
    (found : tree.advance? follow? place steps = some target) :
    tree.advance? more? place steps = some target := by
  fun_induction tree.advance? follow? place steps with
  | case1 place => exact found
  | case2 place step steps closed => contradiction
  | case3 place step steps open_ idle ih =>
    rw [advance?, if_neg open_, if_pos idle]
    exact ih found
  | case4 place steps open_ idle ih =>
    rw [advance?, if_neg open_, if_neg idle, if_pos rfl]
    exact ih found
  | case5 place step steps open_ idle up absent => contradiction
  | case6 place step steps open_ idle up link linked =>
    rw [advance?, if_neg open_, if_neg idle, if_neg up, linked]
    exact grows found
  | case7 place step steps open_ idle up node notLink known ih =>
    rw [advance?, if_neg open_, if_neg idle, if_neg up, known]
    cases node with
    | link target => exact absurd rfl (notLink target)
    | file text => exact ih found
    | directory => exact ih found

theorem resolve?_succ (found : tree.resolve? links place steps = some target) :
    tree.resolve? (links + 1) place steps = some target := by
  induction links generalizing place steps target with
  | zero => exact advance?_of_follow? (by simp) found
  | succ links ih => exact advance?_of_follow? ih found

theorem resolve?_of_le {more : Nat} (enough : links ≤ more)
    (found : tree.resolve? links place steps = some target) :
    tree.resolve? more place steps = some target := by
  induction enough with
  | refl => exact found
  | step _ ih => exact resolve?_succ ih

private theorem exists_advance?_of_append (same : tree.resolve? links = tree.advance? follow?)
    (splits : ∀ {place first target}, follow? place (first ++ rest) = some target →
      ∃ middle left, left ≤ links ∧ follow? place first = some middle ∧
        tree.resolve? left middle rest = some target)
    (found : tree.advance? follow? place (first ++ rest) = some target) :
    ∃ middle left, left ≤ links ∧ tree.advance? follow? place first = some middle ∧
      tree.resolve? left middle rest = some target := by
  fun_induction tree.advance? follow? place first with
  | case1 place => exact ⟨place, links, le_rfl, rfl, same ▸ found⟩
  | case2 place step steps closed =>
    rw [List.cons_append, advance?, if_pos closed] at found
    contradiction
  | case3 place step steps open_ idle ih =>
    rw [List.cons_append, advance?, if_neg open_, if_pos idle] at found
    exact ih found
  | case4 place steps open_ idle ih =>
    rw [List.cons_append, advance?, if_neg open_, if_neg idle, if_pos rfl] at found
    exact ih found
  | case5 place step steps open_ idle up absent =>
    rw [List.cons_append, advance?, if_neg open_, if_neg idle, if_neg up, absent] at found
    contradiction
  | case6 place step steps open_ idle up link linked =>
    rw [List.cons_append, advance?, if_neg open_, if_neg idle, if_neg up, linked] at found
    dsimp only at found
    rw [← List.append_assoc] at found
    exact splits found
  | case7 place step steps open_ idle up node notLink known ih =>
    rw [List.cons_append, advance?, if_neg open_, if_neg idle, if_neg up, known] at found
    cases node with
    | link target => exact absurd rfl (notLink target)
    | file text => exact ih found
    | directory => exact ih found

/-- Steps are taken one after another; links that are followed for the first of them are not left
for the others. -/
theorem exists_resolve?_of_append
    (found : tree.resolve? links place (first ++ rest) = some target) :
    ∃ middle left, left ≤ links ∧ tree.resolve? links place first = some middle ∧
      tree.resolve? left middle rest = some target := by
  induction links generalizing place first target with
  | zero => exact exists_advance?_of_append rfl (by simp) found
  | succ links ih =>
    refine exists_advance?_of_append rfl (fun {place first target} later => ?_) found
    obtain ⟨middle, left, fewer, there, on⟩ := ih later
    exact ⟨middle, left, fewer.trans (Nat.le_succ links), there, on⟩

theorem eq_of_resolve?_empty (found : tree.resolve? links place [""] = some target) :
    target = place := by
  cases links <;>
  · rw [resolve?, advance?] at found
    split at found
    · contradiction
    · rw [if_pos (.inl rfl), advance?] at found
      exact (Option.some.inj found).symm

end Steps

section Join

variable {path : Path} {name : String} {place : FilePlace}

theorem exists_steps_join (named : Path.IsName name) (located : tree.locate? path = some place) :
    ∃ steps, Path.parts (Path.join path name) = steps ++ [name] ∧
      tree.resolve? 40 (tree.origin (Path.join path name)) steps = some place := by
  obtain ⟨nonempty, resolved⟩ := locate?_eq_some_iff.mp located
  obtain ⟨steps, spelled, before, absolute⟩ := Path.exists_parts_join nonempty named
  have same : tree.origin (Path.join path name) = tree.origin path := by
    rw [origin, origin, absolute]
  refine ⟨steps, spelled, ?_⟩
  rw [same]
  rcases before with before | before
  · rwa [before] at resolved
  · rw [before] at resolved
    obtain ⟨middle, left, _, there, on⟩ := exists_resolve?_of_append resolved
    rw [there, eq_of_resolve?_empty on]

theorem target?_of_locate?_join (named : Path.IsName name)
    (located : tree.locate? path = some place) {target : FilePlace}
    (found : tree.locate? (Path.join path name) = some target) :
    tree.target? place name = some target := by
  obtain ⟨steps, spelled, resolved⟩ := exists_steps_join named located
  obtain ⟨_, onward⟩ := locate?_eq_some_iff.mp found
  rw [spelled] at onward
  obtain ⟨middle, left, fewer, there, on⟩ := exists_resolve?_of_append onward
  cases resolved.symm.trans there
  exact resolve?_of_le fewer on

theorem eq_of_join_eq {other : Path} {otherName : String} {otherPlace : FilePlace}
    (named : Path.IsName name) (otherNamed : Path.IsName otherName)
    (located : tree.locate? path = some place) (otherLocated : tree.locate? other = some otherPlace)
    (same : Path.join path name = Path.join other otherName) :
    place = otherPlace ∧ name = otherName := by
  obtain ⟨steps, spelled, resolved⟩ := exists_steps_join named located
  obtain ⟨otherSteps, otherSpelled, otherResolved⟩ := exists_steps_join otherNamed otherLocated
  rw [same, otherSpelled] at spelled
  obtain ⟨sameSteps, sameName⟩ := List.append_inj' spelled rfl
  rw [same, ← sameSteps] at resolved
  exact ⟨Option.some.inj (resolved.symm.trans otherResolved), (List.cons.inj sameName).1.symm⟩

end Join

/-- Every place is there once, under names that a path can spell. -/
structure IsSound (tree : FileTree) : Prop where
  nodup : (tree.nodes.map Prod.fst).Nodup
  named : ∀ place ∈ tree.nodes.map Prod.fst, ∀ name ∈ place, Path.IsName name

def nameIn? (directory place : FilePlace) : Option String :=
  match place.getLast? with
  | some name => if place.dropLast = directory then some name else none
  | none => none

theorem nameIn?_eq_some_iff {directory place : FilePlace} {name : String} :
    nameIn? directory place = some name ↔ place = directory ++ [name] := by
  constructor
  · intro found
    unfold nameIn? at found
    split at found
    · next last ends =>
      obtain ⟨same, named⟩ := Option.ite_none_right_eq_some.mp found
      rw [← same, List.dropLast_append_getLast? name (ends.trans named)]
    · contradiction
  · rintro rfl
    simp [nameIn?]

theorem names_eq (tree : FileTree) (directory : FilePlace) :
    tree.names directory = (tree.nodes.map Prod.fst).filterMap (nameIn? directory) := by
  rw [List.filterMap_map]
  rfl

theorem mem_names_iff {place : FilePlace} {name : String} :
    name ∈ tree.names place ↔ place ++ [name] ∈ tree.nodes.map Prod.fst := by
  simp [names_eq, nameIn?_eq_some_iff]

theorem IsSound.nodup_names (sound : tree.IsSound) (place : FilePlace) :
    (tree.names place).Nodup := by
  rw [names_eq]
  refine sound.nodup.filterMap fun first second name => ?_
  simp only [Option.mem_def, nameIn?_eq_some_iff]
  rintro rfl rfl
  rfl

theorem IsSound.isName (sound : tree.IsSound) {place : FilePlace} {name : String}
    (listed : name ∈ tree.names place) : Path.IsName name :=
  sound.named _ (mem_names_iff.mp listed) name (by simp)

theorem isSound_empty : ({} : FileTree).IsSound where
  nodup := List.nodup_nil
  named := nofun

private theorem IsSound.put (sound : tree.IsSound) {place : FilePlace}
    (named : ∀ name ∈ place, Path.IsName name) (node : FileNode) :
    ({ tree with nodes := Assoc.put place node tree.nodes } : FileTree).IsSound where
  nodup := Assoc.nodup_keys_alter place _ tree.nodes sound.nodup
  named := by
    intro other present
    rw [Assoc.put, Assoc.keys_alter] at present
    split at present
    · exact sound.named other present
    · rcases List.mem_append.mp present with present | same
      · exact sound.named other present
      · exact List.mem_singleton.mp same ▸ named

theorem IsSound.insert (sound : tree.IsSound) {place : FilePlace}
    (named : ∀ name ∈ place, Path.IsName name) (node : FileNode) :
    (tree.insert place node).IsSound := by
  have all (directories : List FilePlace) (tree : FileTree) (sound : tree.IsSound)
      (below : ∀ directory ∈ directories, ∀ name ∈ directory, Path.IsName name) :
      ({ tree with
          nodes := directories.foldl (fun nodes directory => Assoc.put directory .directory nodes)
            tree.nodes } : FileTree).IsSound := by
    induction directories generalizing tree with
    | nil => exact sound
    | cons directory rest ih =>
      obtain ⟨here, later⟩ := List.forall_mem_cons.mp below
      exact ih _ (sound.put here .directory) later
  refine IsSound.put (all _ tree sound ?_) named node
  intro directory onTheWay name present
  obtain ⟨taken, _⟩ := List.mem_filter.mp onTheWay
  obtain ⟨length, _, rfl⟩ := List.mem_map.mp taken
  exact named name (List.mem_of_mem_take present)

end Visibility.FileTree
