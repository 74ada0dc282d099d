import Mathlib.Data.List.Flatten
import Mathlib.Data.List.Nodup
import Visibility.Proofs.Files.Visits

set_option autoImplicit false
set_option relaxedAutoImplicit false

/-!
The ways by which a walk can come to a directory.

Where a walk enters a directory, it has entered all that is on some way there.  It need not take
every way: a directory that is entered by one path is not entered by another one.  Where there is no
other path, for none of the directories on a way, every walk takes this way.
-/

namespace Visibility.FileTree

variable {tree : FileTree} {start path : Path} {place : FilePlace}
  {above : List (Path × FilePlace)}

/-- A chain of directories from a path on, each an entry of the one before and none of them twice:
those that are passed, the last of them first, and the path and the place of the one where it
ends. -/
inductive Way (tree : FileTree) (start : Path) :
    List (Path × FilePlace) → Path → FilePlace → Prop
  | start {place : FilePlace} (located : tree.locate? start = some place)
      (directory : tree.isDirectoryAt place) : Way tree start [] start place
  | entry {above : List (Path × FilePlace)} {path : Path} {place next : FilePlace} {name : String}
      (before : Way tree start above path place) (listed : name ∈ tree.names place)
      (located : tree.locate? (Path.join path name) = some next)
      (directory : tree.isDirectoryAt next) (new : next ∉ place :: above.map Prod.snd) :
      Way tree start ((path, place) :: above) (Path.join path name) next

def HasOnePath (tree : FileTree) (start : Path) (place : FilePlace) : Prop :=
  ∀ above path others other, tree.Way start above path place → tree.Way start others other place →
    path = other

namespace Way

theorem located (way : tree.Way start above path place) : tree.locate? path = some place := by
  cases way with
  | start located => exact located
  | entry _ _ located => exact located

theorem directory (way : tree.Way start above path place) : tree.isDirectoryAt place := by
  cases way with
  | start _ directory => exact directory
  | entry _ _ _ directory => exact directory

theorem not_mem (way : tree.Way start above path place) : place ∉ above.map Prod.snd := by
  cases way with
  | start => exact List.not_mem_nil
  | entry _ _ _ _ new => exact new

theorem nonempty (way : tree.Way start above path place) : path ≠ "" :=
  (locate?_eq_some_iff.mp way.located).1

theorem isDirectory_start (way : tree.Way start above path place) : tree.isDirectory start := by
  induction way with
  | start located directory => exact isDirectory_iff.mpr ⟨_, located, directory⟩
  | entry _ _ _ _ _ ih => exact ih

theorem length_keys (sound : tree.IsSound) (way : tree.Way start above path place) :
    (Path.keys path).length = (Path.keys start).length + above.length := by
  induction way with
  | start => rfl
  | entry before listed _ _ _ ih =>
    rw [Path.keys_join before.nonempty (sound.isName listed), List.length_append, ih]
    simp [Nat.add_assoc]

theorem eq_of_keys_eq (sound : tree.IsSound) {others : List (Path × FilePlace)} {other : Path}
    {otherPlace : FilePlace} (way : tree.Way start above path place)
    (second : tree.Way start others other otherPlace) (same : Path.keys path = Path.keys other) :
    (path, place) :: above = (other, otherPlace) :: others := by
  have lengths : above.length = others.length := by
    have first := way.length_keys sound
    have last := second.length_keys sound
    rw [same] at first
    omega
  induction way generalizing others other otherPlace with
  | start located directory =>
    cases second with
    | start located' => rw [Option.some.inj (located.symm.trans located')]
    | entry => contradiction
  | entry before listed located directory new ih =>
    cases second with
    | start => contradiction
    | entry before' listed' located' directory' new' =>
      obtain ⟨sameKeys, rfl⟩ := Path.eq_of_keys_join_eq before.nonempty (sound.isName listed)
        before'.nonempty (sound.isName listed') same
      obtain ⟨sameVisit, rfl⟩ := List.cons.inj (ih before' sameKeys (Nat.succ.inj lengths))
      obtain ⟨rfl, rfl⟩ := Prod.mk.inj sameVisit
      rw [Option.some.inj (located.symm.trans located')]

end Way

theorem nodup_flatMap_names (sound : tree.IsSound) {visits : List (Path × FilePlace)}
    (once : (visits.map Prod.snd).Nodup)
    (located : ∀ visit ∈ visits, tree.locate? visit.1 = some visit.2) :
    (visits.flatMap fun visit => (tree.names visit.2).map (Path.join visit.1)).Nodup := by
  rw [List.nodup_flatMap]
  constructor
  · intro visit entered
    refine List.Nodup.map_on ?_ (sound.nodup_names visit.2)
    intro name listed other otherListed same
    exact (eq_of_join_eq (sound.isName listed) (sound.isName otherListed) (located visit entered)
      (located visit entered) same).2
  · have apart := List.pairwise_map.mp once
    refine apart.imp_of_mem fun {visit other} entered otherEntered differ => ?_
    intro file inFirst inSecond
    obtain ⟨name, listed, rfl⟩ := List.mem_map.mp inFirst
    obtain ⟨otherName, otherListed, same⟩ := List.mem_map.mp inSecond
    exact differ (eq_of_join_eq (sound.isName listed) (sound.isName otherListed)
      (located visit entered) (located other otherEntered) same.symm).1

namespace Visits

variable {paths : List Path} {found after : Walk} {visits : List (Path × FilePlace)}

theorem exists_way_of_paths {seen : List (Path × FilePlace)}
    (run : tree.Visits paths found visits after) (known : found.visited = seen.map Prod.snd)
    (ways : ∀ path ∈ paths, ∀ place, tree.locate? path = some place → tree.isDirectoryAt place →
      place ∉ found.visited → ∃ above, above ⊆ seen ∧ tree.Way start above path place) :
    ∀ visit ∈ visits, ∃ above, above ⊆ seen ++ visits ∧ tree.Way start above visit.1 visit.2 := by
  induction run generalizing seen with
  | done => nofun
  | again located directory _ later ih => exact ih known (List.forall_mem_cons.mp ways).2
  | @enter path _ place found middle _ below others located directory new inside later ihInside ih =>
    obtain ⟨here, elsewhere⟩ := List.forall_mem_cons.mp ways
    obtain ⟨above, among, way⟩ := here place located directory new
    have entered : found.visited ++ [place] = (seen ++ [(path, place)]).map Prod.snd := by
      rw [List.map_append, known, List.map_singleton]
    have visited : middle.visited = (seen ++ (path, place) :: below).map Prod.snd := by
      rw [inside.visited_eq, entered, ← List.map_append, List.append_assoc, List.singleton_append]
    have insideWays := ihInside entered fun entry inPlace next leads open_ unseen => by
      obtain ⟨name, listed, rfl⟩ := List.mem_map.mp inPlace
      have passed : place :: above.map Prod.snd ⊆ found.visited ++ [place] := by
        rw [entered, List.map_append]
        exact List.cons_subset.mpr ⟨by simp,
          List.subset_append_of_subset_left _ (List.map_subset _ among)⟩
      have grown : (path, place) :: above ⊆ seen ++ [(path, place)] :=
        List.cons_subset.mpr ⟨by simp, List.subset_append_of_subset_left _ among⟩
      exact ⟨_, grown, way.entry listed leads open_ fun present => unseen (passed present)⟩
    have laterWays := ih visited fun path among place leads open_ unseen => by
      obtain ⟨above, seenAbove, way⟩ := elsewhere path among place leads open_ fun present =>
        unseen (inside.visited_subset (List.mem_append_left _ present))
      exact ⟨above, List.subset_append_of_subset_left _ seenAbove, way⟩
    have split : seen ++ [(path, place)] ++ below ++ others =
        seen ++ (path, place) :: (below ++ others) := by
      simp
    rw [List.forall_mem_cons, List.forall_mem_append]
    refine ⟨⟨above, List.subset_append_of_subset_left _ among, way⟩, fun visit inBelow => ?_,
      fun visit inOthers => ?_⟩
    · obtain ⟨above, among, way⟩ := insideWays visit inBelow
      exact ⟨above, by rw [← split]; exact List.subset_append_of_subset_left _ among, way⟩
    · obtain ⟨above, among, way⟩ := laterWays visit inOthers
      exact ⟨above, by rwa [List.append_assoc, List.cons_append] at among, way⟩
  | take _ later ih => exact ih known (List.forall_mem_cons.mp ways).2
  | skip _ _ later ih => exact ih known (List.forall_mem_cons.mp ways).2

/-- A walk from a path on enters a directory only after all that is on some way to it. -/
theorem exists_way (run : tree.Visits [start] {} visits after) :
    ∀ visit ∈ visits, ∃ above, above ⊆ visits ∧ tree.Way start above visit.1 visit.2 := by
  have none_ : ({} : Walk).visited = ([] : List (Path × FilePlace)).map Prod.snd := rfl
  refine run.exists_way_of_paths none_ fun path among place located directory _ => ?_
  cases List.mem_singleton.mp among
  exact ⟨[], List.nil_subset _, .start located directory⟩

theorem nodup_places (run : tree.Visits [start] {} visits after) :
    (visits.map Prod.snd).Nodup := by
  have proper := run.isProper ⟨List.nodup_nil, nofun⟩
  rw [← List.nil_append (visits.map Prod.snd), ← run.visited_eq]
  exact proper.nodup

theorem located (run : tree.Visits [start] {} visits after) :
    ∀ visit ∈ visits, tree.locate? visit.1 = some visit.2 := by
  intro visit entered
  obtain ⟨_, _, way⟩ := run.exists_way visit entered
  exact way.located

theorem mem_of_hasOnePath (run : tree.Visits [start] {} visits after)
    (way : tree.Way start above path place)
    (single : ∀ visit ∈ (path, place) :: above, tree.HasOnePath start visit.2) :
    (path, place) ∈ visits := by
  -- a directory that is entered by any path is entered by the path of the way
  have taken {above : List (Path × FilePlace)} {path : Path} {place : FilePlace}
      (way : tree.Way start above path place) (single : tree.HasOnePath start place)
      (entered : place ∈ after.visited) : (path, place) ∈ visits := by
    rw [run.visited_eq] at entered
    obtain ⟨visit, among, rfl⟩ := List.mem_map.mp entered
    obtain ⟨others, _, other⟩ := run.exists_way visit among
    rwa [single _ _ _ _ way other]
  induction way with
  | start located directory =>
    refine taken (.start located directory) (single _ List.mem_cons_self) ?_
    exact (run.mem_visited directory).1 start List.mem_cons_self located
  | entry before listed located directory new ih =>
    obtain ⟨here, above⟩ := List.forall_mem_cons.mp single
    refine taken (before.entry listed located directory new) here ?_
    exact (run.mem_visited directory).2 _ (ih above) _ listed located

theorem files_perm_entries (run : tree.Visits [start] {} visits after)
    (directory : tree.isDirectory start) :
    after.files.Perm (visits.flatMap fun visit =>
      ((tree.names visit.2).map (Path.join visit.1)).filter tree.isMapping) := by
  obtain ⟨place, located, open_⟩ := isDirectory_iff.mp directory
  have closed : [start].filter tree.isMapping = [] := by
    simp [isMapping_of_isDirectoryAt located open_]
  have files := run.files_perm
  rwa [closed] at files

theorem mem_files_iff (run : tree.Visits [start] {} visits after)
    (directory : tree.isDirectory start) {file : Path} :
    file ∈ after.files ↔ ∃ visit ∈ visits, ∃ name ∈ tree.names visit.2,
      Path.join visit.1 name = file ∧ tree.isMapping file := by
  rw [(run.files_perm_entries directory).mem_iff, List.mem_flatMap]
  refine exists_congr fun visit => and_congr_right fun _ => ?_
  rw [List.mem_filter, List.mem_map]
  constructor
  · rintro ⟨⟨name, listed, same⟩, mapping⟩
    exact ⟨name, listed, same, mapping⟩
  · rintro ⟨name, listed, same, mapping⟩
    exact ⟨⟨name, listed, same⟩, mapping⟩

theorem nodup_files (sound : tree.IsSound) (run : tree.Visits [start] {} visits after)
    (directory : tree.isDirectory start) : after.files.Nodup := by
  rw [(run.files_perm_entries directory).nodup_iff]
  exact (nodup_flatMap_names sound run.nodup_places run.located).sublist
    (List.Sublist.flatMap_right visits fun _ _ => List.filter_sublist)

end Visits

end Visibility.FileTree
