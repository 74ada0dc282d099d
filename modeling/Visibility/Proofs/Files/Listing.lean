import Visibility.Proofs.Files.Discovery

set_option autoImplicit false
set_option relaxedAutoImplicit false

/-!
Whether what is found depends on the order in which directories are listed.

A walk enters a directory by the first path that it comes to, and the files in it are found under
this path.  Which path is the first is up to the listings, also where the files are sorted in the
end.  What is found is the same for all listings exactly where each directory on a way to a mapping
file has one path.
-/

namespace Visibility.FileTree

variable {tree other : FileTree} {start path : Path} {place : FilePlace}
  {above : List (Path × FilePlace)}

theorem IsSound.lookup_eq_some_iff (sound : tree.IsSound) {node : FileNode} :
    tree.nodes.lookup place = some node ↔ (place, node) ∈ tree.nodes := by
  rw [List.lookup_eq_some_iff]
  constructor
  · rintro ⟨before, after, split, _⟩
    simp [split]
  · intro present
    obtain ⟨before, after, split⟩ := List.append_of_mem present
    have once := sound.nodup
    rw [split, List.map_append, List.map_cons, List.nodup_append] at once
    refine ⟨before, after, split, fun earlier among => ?_⟩
    have differ := once.2.2 earlier.1 (List.mem_map_of_mem among) place List.mem_cons_self
    simpa using differ.symm

/-- The same files, directories and links, listed in another order. -/
structure Relists (tree other : FileTree) : Prop where
  nodes : tree.nodes.Perm other.nodes
  workingDirectory : tree.workingDirectory = other.workingDirectory

namespace Relists

theorem symm (relists : tree.Relists other) : other.Relists tree :=
  ⟨relists.nodes.symm, relists.workingDirectory.symm⟩

theorem trans {last : FileTree} (relists : tree.Relists other) (further : other.Relists last) :
    tree.Relists last :=
  ⟨relists.nodes.trans further.nodes, relists.workingDirectory.trans further.workingDirectory⟩

theorem isSound (relists : tree.Relists other) (sound : tree.IsSound) : other.IsSound := by
  have places := relists.nodes.map Prod.fst
  exact ⟨places.nodup_iff.mp sound.nodup, fun place present =>
    sound.named place (places.mem_iff.mpr present)⟩

theorem names (relists : tree.Relists other) (place : FilePlace) :
    (tree.names place).Perm (other.names place) := by
  rw [names_eq, names_eq]
  exact (relists.nodes.map Prod.fst).filterMap _

theorem node?_eq (relists : tree.Relists other) (sound : tree.IsSound) : other.node? = tree.node? := by
  funext place
  have nodes : other.nodes.lookup place = tree.nodes.lookup place := by
    refine Option.ext fun node => ?_
    rw [sound.lookup_eq_some_iff, (relists.isSound sound).lookup_eq_some_iff,
      relists.nodes.mem_iff]
  rw [node?, node?, nodes]

theorem isDirectoryAt_eq (relists : tree.Relists other) (sound : tree.IsSound) :
    other.isDirectoryAt = tree.isDirectoryAt := by
  funext place
  rw [isDirectoryAt, isDirectoryAt, relists.node?_eq sound]

theorem advance?_eq (relists : tree.Relists other) (sound : tree.IsSound) :
    other.advance? = tree.advance? := by
  funext follow? place steps
  fun_induction tree.advance? follow? place steps <;>
    simp_all [advance?, relists.isDirectoryAt_eq sound, relists.node?_eq sound]

theorem locate?_eq (relists : tree.Relists other) (sound : tree.IsSound) :
    other.locate? = tree.locate? := by
  have resolve (links : Nat) : other.resolve? links = tree.resolve? links := by
    induction links with
    | zero => rw [resolve?, resolve?, relists.advance?_eq sound]
    | succ links ih => rw [resolve?, resolve?, relists.advance?_eq sound, ih]
  funext path
  rw [locate?, locate?, relists.workingDirectory, resolve]

theorem find?_eq (relists : tree.Relists other) (sound : tree.IsSound) :
    other.find? = tree.find? := by
  funext path
  rw [find?, find?, relists.locate?_eq sound, relists.node?_eq sound]

theorem isMapping_eq (relists : tree.Relists other) (sound : tree.IsSound) :
    other.isMapping = tree.isMapping := by
  funext path
  rw [isMapping, isMapping, isFile, isFile, relists.find?_eq sound]

end Relists

theorem Way.relists (way : tree.Way start above path place) (relists : tree.Relists other)
    (sound : tree.IsSound) : other.Way start above path place := by
  induction way with
  | start located directory =>
    exact .start (relists.locate?_eq sound ▸ located) (relists.isDirectoryAt_eq sound ▸ directory)
  | @entry _ _ place _ _ before listed located directory new ih =>
    exact ih.entry ((relists.names place).mem_iff.mp listed) (relists.locate?_eq sound ▸ located)
      (relists.isDirectoryAt_eq sound ▸ directory) new

theorem HasOnePath.relists (single : tree.HasOnePath start place) (relists : tree.Relists other)
    (sound : tree.IsSound) : other.HasOnePath start place :=
  fun _ _ _ _ way another =>
    have back := relists.isSound sound
    single _ _ _ _ (way.relists relists.symm back) (another.relists relists.symm back)

/-- On a way to a mapping file, each directory has one path. -/
def Unaliased (tree : FileTree) (start : Path) : Prop :=
  ∀ above path place, tree.Way start above path place → ∀ name ∈ tree.names place,
    tree.isMapping (Path.join path name) →
      ∀ visit ∈ (path, place) :: above, tree.HasOnePath start visit.2

theorem Unaliased.relists (unaliased : tree.Unaliased start) (relists : tree.Relists other)
    (sound : tree.IsSound) : other.Unaliased start := by
  intro above path place way name listed mapping visit among
  refine HasOnePath.relists ?_ relists sound
  exact unaliased above path place (way.relists relists.symm (relists.isSound sound)) name
    ((relists.names place).mem_iff.mpr listed) (relists.isMapping_eq sound ▸ mapping) visit among

theorem exists_visits (directory : tree.isDirectory start) :
    ∃ visits after, tree.Visits [start] {} visits after ∧
      tree.discover start = after.files.mergeSort Path.le := by
  have proper : ({} : Walk).IsProper tree := ⟨List.nodup_nil, nofun⟩
  obtain ⟨visits, run⟩ := exists_visits_walk proper (Nat.lt_succ_self tree.nodes.length) directory
  exact ⟨visits, _, run, if_pos directory⟩

theorem Visits.mem_discover_iff {visits : List (Path × FilePlace)} {after : Walk}
    (run : tree.Visits [start] {} visits after) (directory : tree.isDirectory start) {file : Path} :
    file ∈ tree.discover start ↔ ∃ visit ∈ visits, ∃ name ∈ tree.names visit.2,
      Path.join visit.1 name = file ∧ tree.isMapping file := by
  obtain ⟨others, last, other, discovered⟩ := exists_visits directory
  obtain ⟨rfl, rfl⟩ := run.unique other
  rw [discovered, List.mem_mergeSort, run.mem_files_iff directory]

theorem discover_eq_nil (closed : ¬tree.isDirectory start) : tree.discover start = [] :=
  if_neg closed

theorem exists_way_of_mem_discover {file : Path} (found : file ∈ tree.discover start) :
    ∃ above path place, tree.Way start above path place ∧
      ∃ name ∈ tree.names place, Path.join path name = file ∧ tree.isMapping file := by
  by_cases directory : tree.isDirectory start
  · obtain ⟨visits, after, run, _⟩ := exists_visits directory
    rw [run.mem_discover_iff directory] at found
    obtain ⟨visit, entered, entry⟩ := found
    obtain ⟨above, _, way⟩ := run.exists_way visit entered
    exact ⟨above, visit.1, visit.2, way, entry⟩
  · rw [discover_eq_nil directory] at found
    contradiction

theorem nodup_discover (sound : tree.IsSound) : (tree.discover start).Nodup := by
  by_cases directory : tree.isDirectory start
  · obtain ⟨visits, after, run, discovered⟩ := exists_visits directory
    rw [discovered]
    exact (List.mergeSort_perm _ _).nodup_iff.mpr (run.nodup_files sound directory)
  · rw [discover_eq_nil directory]
    exact List.nodup_nil

theorem pairwise_discover :
    (tree.discover start).Pairwise fun first second => Path.le first second := by
  by_cases directory : tree.isDirectory start
  · obtain ⟨visits, after, run, discovered⟩ := exists_visits directory
    rw [discovered]
    exact List.pairwise_mergeSort Path.le_trans Path.le_total _
  · rw [discover_eq_nil directory]
    exact .nil

theorem mem_discover_of_hasOnePath (way : tree.Way start above path place) {name : String}
    (listed : name ∈ tree.names place) (mapping : tree.isMapping (Path.join path name))
    (single : ∀ visit ∈ (path, place) :: above, tree.HasOnePath start visit.2) :
    Path.join path name ∈ tree.discover start := by
  have directory := way.isDirectory_start
  obtain ⟨visits, after, run, _⟩ := exists_visits directory
  rw [run.mem_discover_iff directory]
  exact ⟨_, run.mem_of_hasOnePath way single, name, listed, rfl, mapping⟩

theorem Unaliased.discover_subset (unaliased : tree.Unaliased start)
    (relists : tree.Relists other) (sound : tree.IsSound) :
    tree.discover start ⊆ other.discover start := by
  intro file found
  obtain ⟨above, path, place, way, name, listed, rfl, mapping⟩ := exists_way_of_mem_discover found
  refine mem_discover_of_hasOnePath (way.relists relists sound)
    ((relists.names place).mem_iff.mp listed) (relists.isMapping_eq sound ▸ mapping) ?_
  exact fun visit among =>
    (unaliased above path place way name listed mapping visit among).relists relists sound

theorem eq_of_le_of_le (sound : tree.IsSound) {first second : Path}
    (found : first ∈ tree.discover start) (foundToo : second ∈ tree.discover start)
    (le : Path.le first second) (ge : Path.le second first) : first = second := by
  obtain ⟨_, path, place, way, name, listed, rfl, _⟩ := exists_way_of_mem_discover found
  obtain ⟨_, path', place', way', name', listed', rfl, _⟩ := exists_way_of_mem_discover foundToo
  obtain ⟨sameKeys, rfl⟩ := Path.eq_of_keys_join_eq way.nonempty (sound.isName listed)
    way'.nonempty (sound.isName listed') (Path.keysLe_antisymm le ge)
  have sameWay := way.eq_of_keys_eq sound way' sameKeys
  rw [(Prod.mk.inj (List.cons.inj sameWay).1).1]

theorem Unaliased.discover_eq (unaliased : tree.Unaliased start)
    (relists : tree.Relists other) (sound : tree.IsSound) :
    other.discover start = tree.discover start := by
  have back := relists.isSound sound
  have there := unaliased.discover_subset relists sound
  have here := (unaliased.relists relists sound).discover_subset relists.symm back
  have perm : (other.discover start).Perm (tree.discover start) := by
    rw [List.perm_ext_iff_of_nodup (nodup_discover back) (nodup_discover sound)]
    exact fun file => ⟨fun found => here found, fun found => there found⟩
  exact perm.eq_of_pairwise (fun _ _ found foundToo => eq_of_le_of_le sound (here found) foundToo)
    pairwise_discover pairwise_discover

theorem exists_relists_first {name : String} (listed : name ∈ tree.names place) :
    ∃ other, tree.Relists other ∧ (∃ rest, other.names place = name :: rest) ∧
      ∀ elsewhere, elsewhere ≠ place → other.names elsewhere = tree.names elsewhere := by
  obtain ⟨entry, among, same⟩ := List.mem_map.mp (mem_names_iff.mp listed)
  obtain ⟨before, after, split⟩ := List.append_of_mem among
  let first : FileTree := { tree with nodes := entry :: (before ++ after) }
  have relists : tree.Relists first := ⟨split ▸ List.perm_middle, rfl⟩
  have here : nameIn? place entry.1 = some name := nameIn?_eq_some_iff.mpr same
  refine ⟨first, relists, ⟨_, (names_eq first place).trans (List.filterMap_cons_some here)⟩, ?_⟩
  intro elsewhere differ
  have absent : nameIn? elsewhere entry.1 = none := by
    rw [Option.eq_none_iff_forall_ne_some, same]
    intro other there
    exact differ (List.append_inj_left' (nameIn?_eq_some_iff.mp there) rfl).symm
  rw [names_eq, names_eq, split]
  simp [first, absent]

/-- A way on which each directory is the first that is listed in the one before. -/
inductive FirstWay (tree : FileTree) (start : Path) :
    List (Path × FilePlace) → Path → FilePlace → Prop
  | start {place : FilePlace} (located : tree.locate? start = some place)
      (directory : tree.isDirectoryAt place) : FirstWay tree start [] start place
  | entry {above : List (Path × FilePlace)} {path : Path} {place next : FilePlace} {name : String}
      {rest : List String} (before : FirstWay tree start above path place)
      (listed : tree.names place = name :: rest)
      (located : tree.locate? (Path.join path name) = some next)
      (directory : tree.isDirectoryAt next) (new : next ∉ place :: above.map Prod.snd) :
      FirstWay tree start ((path, place) :: above) (Path.join path name) next

theorem FirstWay.way (way : tree.FirstWay start above path place) :
    tree.Way start above path place := by
  induction way with
  | start located directory => exact .start located directory
  | entry before listed located directory new ih =>
    exact ih.entry (by simp [listed]) located directory new

theorem FirstWay.relists (way : tree.FirstWay start above path place)
    (relists : tree.Relists other) (sound : tree.IsSound)
    (same : ∀ passed ∈ above.map Prod.snd, other.names passed = tree.names passed) :
    other.FirstWay start above path place := by
  induction way with
  | start located directory =>
    exact .start (relists.locate?_eq sound ▸ located) (relists.isDirectoryAt_eq sound ▸ directory)
  | entry before listed located directory new ih =>
    obtain ⟨here, further⟩ := List.forall_mem_cons.mp same
    exact (ih further).entry (here.trans listed) (relists.locate?_eq sound ▸ located)
      (relists.isDirectoryAt_eq sound ▸ directory) new

/-- Any way is the first one for some listings. -/
theorem Way.exists_firstWay (way : tree.Way start above path place) (sound : tree.IsSound) :
    ∃ other, tree.Relists other ∧ other.FirstWay start above path place := by
  induction way with
  | start located directory => exact ⟨tree, ⟨.refl _, rfl⟩, .start located directory⟩
  | entry before listed located directory new ih =>
    obtain ⟨middle, relists, first⟩ := ih
    obtain ⟨other, further, ⟨rest, names⟩, same⟩ :=
      exists_relists_first ((relists.names _).mem_iff.mp listed)
    have all := relists.trans further
    have kept := first.relists further (relists.isSound sound) fun passed among =>
      same passed fun here => before.not_mem (here ▸ among)
    exact ⟨other, all, kept.entry names (all.locate?_eq sound ▸ located)
      (all.isDirectoryAt_eq sound ▸ directory) new⟩

/-- A walk comes to the end of the first way when it has entered only what is passed there. -/
theorem FirstWay.arrives (way : tree.FirstWay start above path place)
    {visits : List (Path × FilePlace)} {after : Walk} (run : tree.Visits [start] {} visits after) :
    ∃ rest found entered later, tree.Visits (path :: rest) found entered later ∧
      found.visited = (above.map Prod.snd).reverse ∧ entered ⊆ visits := by
  induction way with
  | start => exact ⟨[], {}, visits, after, run, rfl, List.Subset.refl _⟩
  | @entry _ _ place _ _ _ before listed located directory new ih =>
    obtain ⟨rest, found, entered, later, onward, visited, among⟩ := ih
    have unseen : place ∉ found.visited := by
      rw [visited, List.mem_reverse]
      exact before.way.not_mem
    obtain ⟨below, others, middle, rfl, inside⟩ :=
      onward.exists_enter before.way.located before.way.directory unseen
    rw [listed, List.map_cons] at inside
    refine ⟨_, _, _, _, inside, by simp [visited], fun visit inBelow => among ?_⟩
    exact List.mem_cons_of_mem _ (List.mem_append_left _ inBelow)

theorem FirstWay.subset_visits (way : tree.FirstWay start above path place)
    {visits : List (Path × FilePlace)} {after : Walk} (run : tree.Visits [start] {} visits after) :
    (path, place) :: above ⊆ visits := by
  -- where a first way ends is entered, and it ends in each directory that it passes
  have enters {above : List (Path × FilePlace)} {path : Path} {place : FilePlace}
      (way : tree.FirstWay start above path place) : (path, place) ∈ visits := by
    obtain ⟨rest, found, entered, later, onward, visited, among⟩ := way.arrives run
    have unseen : place ∉ found.visited := by
      rw [visited, List.mem_reverse]
      exact way.way.not_mem
    obtain ⟨_, _, _, rfl, _⟩ := onward.exists_enter way.way.located way.way.directory unseen
    exact among List.mem_cons_self
  induction way with
  | start located directory => exact List.cons_subset.mpr ⟨enters (.start located directory), nofun⟩
  | entry before listed located directory new ih =>
    exact List.cons_subset.mpr ⟨enters (before.entry listed located directory new), ih⟩

theorem FirstWay.mem_discover (way : tree.FirstWay start above path place) {name : String}
    (listed : name ∈ tree.names place) (mapping : tree.isMapping (Path.join path name)) :
    Path.join path name ∈ tree.discover start := by
  have directory := way.way.isDirectory_start
  obtain ⟨visits, after, run, _⟩ := exists_visits directory
  rw [run.mem_discover_iff directory]
  exact ⟨_, way.subset_visits run List.mem_cons_self, name, listed, rfl, mapping⟩

theorem FirstWay.path_eq (sound : tree.IsSound) {others : List (Path × FilePlace)} {other : Path}
    {visit : Path × FilePlace} (first : tree.FirstWay start others other visit.2)
    (way : tree.Way start above path place) (among : visit ∈ (path, place) :: above) {name : String}
    (listed : name ∈ tree.names place) (found : Path.join path name ∈ tree.discover start) :
    other = visit.1 := by
  have directory := way.isDirectory_start
  obtain ⟨visits, after, run, _⟩ := exists_visits directory
  rw [run.mem_discover_iff directory] at found
  obtain ⟨visit', entered, name', listed', same, _⟩ := found
  obtain ⟨above', passed, way'⟩ := run.exists_way visit' entered
  obtain ⟨sameKeys, _⟩ := Path.eq_of_keys_join_eq way.nonempty (sound.isName listed)
    way'.nonempty (sound.isName listed') (congrArg Path.keys same.symm)
  rw [way.eq_of_keys_eq sound way' sameKeys] at among
  have taken : visit ∈ visits := (List.cons_subset.mpr ⟨entered, passed⟩) among
  have enteredToo : (other, visit.2) ∈ visits := first.subset_visits run List.mem_cons_self
  have inj := List.inj_on_of_nodup_map run.nodup_places
  exact congrArg Prod.fst (inj enteredToo taken rfl)

/-- Discovery is independent of the order in which directories are listed exactly where no directory
on a way to a mapping file can be reached by two paths. -/
theorem forall_relists_discover_eq_iff (sound : tree.IsSound) :
    (∀ other, tree.Relists other → other.discover start = tree.discover start) ↔
      tree.Unaliased start := by
  constructor
  · intro same above path place way name listed mapping visit among
    -- all ways to the directory spell the path by which the way to the file passes it
    suffices single : ∀ others other, tree.Way start others other visit.2 → other = visit.1 from
      fun _ _ _ _ first second => (single _ _ first).trans (single _ _ second).symm
    intro others other second
    obtain ⟨listing, relists, first⟩ := way.exists_firstWay sound
    have found : Path.join path name ∈ tree.discover start := by
      rw [← same listing relists]
      exact first.mem_discover ((relists.names place).mem_iff.mp listed)
        (relists.isMapping_eq sound ▸ mapping)
    obtain ⟨relisted, relists', first'⟩ := second.exists_firstWay sound
    rw [← same relisted relists'] at found
    exact first'.path_eq (relists'.isSound sound) (way.relists relists' sound) among
      ((relists'.names place).mem_iff.mp listed) found
  · intro unaliased other relists
    exact unaliased.discover_eq relists sound

section Linked

theorem Way.mem_of_closed (ways : List (List (Path × FilePlace) × Path × FilePlace))
    (first : ∀ place ∈ tree.locate? start, ([], start, place) ∈ ways)
    (closed : ∀ way ∈ ways, ∀ name ∈ tree.names way.2.2,
      ∀ next ∈ tree.locate? (Path.join way.2.1 name), tree.isDirectoryAt next →
        next ∉ way.2.2 :: way.1.map Prod.snd →
          (way.2 :: way.1, Path.join way.2.1 name, next) ∈ ways)
    (way : tree.Way start above path place) : (above, path, place) ∈ ways := by
  induction way with
  | start located _ => exact first _ located
  | entry before listed located directory new ih =>
    exact closed _ ih _ listed _ located directory new

def linkedWays : List (List (Path × FilePlace) × Path × FilePlace) :=
  [([], "/p", ["p"]), ([("/p", ["p"])], "/p/a", ["q"])]

theorem unaliased_linkedTree : linkedTree.Unaliased "/p" := by
  intro _ _ _ _ _ _ _ visit _ above path others other way second
  have among := way.mem_of_closed linkedWays (by decide +kernel) (by decide +kernel)
  have amongToo := second.mem_of_closed linkedWays (by decide +kernel) (by decide +kernel)
  have single : ∀ way ∈ linkedWays, ∀ second ∈ linkedWays, way.2.2 = second.2.2 →
      way.2.1 = second.2.1 := by
    decide +kernel
  exact single _ among _ amongToo rfl

theorem forall_relists_discover_eq_linkedTree :
    linkedTree.IsSound ∧ ∀ other, linkedTree.Relists other →
      other.discover "/p" = ["/p/a/c.xml", "/p/b.yaml"] := by
  have same := (forall_relists_discover_eq_iff isSound_linkedTree).mpr unaliased_linkedTree
  rw [discover_linkedTree] at same
  exact ⟨isSound_linkedTree, same⟩

def aliasedTree (first second : String) : FileTree :=
  ((({} : FileTree).insert ["q", "c.yaml"] (.file (some ""))).insert ["p", first]
    (.link "/q")).insert ["p", second] (.link "/q")

theorem discover_aliasedTree :
    (aliasedTree "a" "b").discover "/p" = ["/p/a/c.yaml"] ∧
      (aliasedTree "b" "a").discover "/p" = ["/p/b/c.yaml"] := by
  have alone {tree : FileTree} {file : Path} (directory : tree.isDirectory "/p")
      (walked : (tree.walk (tree.nodes.length + 1) "/p" {}).files = [file]) :
      tree.discover "/p" = [file] := by
    rw [discover, if_pos directory, walked, List.mergeSort_singleton]
  exact ⟨alone (by decide +kernel) (by decide +kernel),
    alone (by decide +kernel) (by decide +kernel)⟩

/-- What is found can depend on the order: the link that is listed first gives the path. -/
theorem not_forall_relists_discover_eq :
    ¬∀ (tree other : FileTree) (start : Path), tree.IsSound → tree.Relists other →
      other.discover start = tree.discover start := by
  intro same
  have sound : (aliasedTree "a" "b").IsSound :=
    ((isSound_empty.insert (by decide) _).insert (by decide) _).insert (by decide) _
  have relists : (aliasedTree "a" "b").Relists (aliasedTree "b" "a") :=
    ⟨by decide +kernel, rfl⟩
  have contradictory := same _ _ "/p" sound relists
  rw [discover_aliasedTree.1, discover_aliasedTree.2] at contradictory
  exact absurd contradictory (by decide)

end Linked

end Visibility.FileTree
