import Mathlib.Data.List.Perm.Subperm
import Visibility.Proofs.Files.Location

set_option autoImplicit false
set_option relaxedAutoImplicit false

/-!
The directories that a walk enters.

A walk is read as a list of paths to visit, without a bound on its depth; it ends since it enters
each real directory once.
-/

namespace Visibility.FileTree

variable {tree : FileTree} {path : Path} {place : FilePlace}

def isMapping (tree : FileTree) (path : Path) : Bool :=
  tree.isFile path && (MappingFormat.ofPath? path).isSome

theorem isMapping_of_isDirectoryAt (located : tree.locate? path = some place)
    (directory : tree.isDirectoryAt place) : tree.isMapping path = false := by
  have found : tree.find? path = some .directory := by
    rw [find?, located]
    exact of_decide_eq_true directory
  simp [isMapping, isFile, found]

/-- The paths of a list are visited one after another.  The visits are the directories that are
entered on the way, each with the path by which it is entered. -/
inductive Visits (tree : FileTree) : List Path → Walk → List (Path × FilePlace) → Walk → Prop
  | done {found : Walk} : Visits tree [] found [] found
  | again {path : Path} {rest : List Path} {place : FilePlace} {found after : Walk}
      {visits : List (Path × FilePlace)} (located : tree.locate? path = some place)
      (directory : tree.isDirectoryAt place) (known : place ∈ found.visited)
      (later : Visits tree rest found visits after) : Visits tree (path :: rest) found visits after
  | enter {path : Path} {rest : List Path} {place : FilePlace} {found middle after : Walk}
      {below others : List (Path × FilePlace)} (located : tree.locate? path = some place)
      (directory : tree.isDirectoryAt place) (new : place ∉ found.visited)
      (inside : Visits tree ((tree.names place).map (Path.join path))
        { found with visited := found.visited ++ [place] } below middle)
      (later : Visits tree rest middle others after) :
      Visits tree (path :: rest) found ((path, place) :: (below ++ others)) after
  | take {path : Path} {rest : List Path} {found after : Walk} {visits : List (Path × FilePlace)}
      (file : tree.isMapping path)
      (later : Visits tree rest { found with files := found.files ++ [path] } visits after) :
      Visits tree (path :: rest) found visits after
  | skip {path : Path} {rest : List Path} {found after : Walk} {visits : List (Path × FilePlace)}
      (closed : tree.isDirectory path = false) (other : tree.isMapping path = false)
      (later : Visits tree rest found visits after) : Visits tree (path :: rest) found visits after

/-- What a walk has visited so far: directories, none of them twice. -/
structure Walk.IsProper (tree : FileTree) (found : Walk) : Prop where
  nodup : found.visited.Nodup
  directories : ∀ place ∈ found.visited, tree.isDirectoryAt place

theorem Walk.IsProper.enter {found : Walk} (proper : found.IsProper tree)
    (directory : tree.isDirectoryAt place) (new : place ∉ found.visited) :
    ({ found with visited := found.visited ++ [place] } : Walk).IsProper tree where
  nodup := List.nodup_append.mpr ⟨proper.nodup, List.nodup_singleton _, by
    rintro one present other alone rfl
    exact new (List.mem_singleton.mp alone ▸ present)⟩
  directories := by
    rw [List.forall_mem_append]
    exact ⟨proper.directories, by simpa using directory⟩

theorem Walk.IsProper.take {found : Walk} (proper : found.IsProper tree) (path : Path) :
    ({ found with files := found.files ++ [path] } : Walk).IsProper tree :=
  ⟨proper.nodup, proper.directories⟩

namespace Visits

variable {paths : List Path} {found after : Walk} {visits : List (Path × FilePlace)}

theorem append {more : List Path} {last : Walk} {others : List (Path × FilePlace)}
    (first : tree.Visits paths found visits after) (second : tree.Visits more after others last) :
    tree.Visits (paths ++ more) found (visits ++ others) last := by
  induction first with
  | done => exact second
  | again located directory known later ih => exact .again located directory known (ih second)
  | enter located directory new inside later _ ih =>
    rw [List.cons_append, List.cons_append, List.append_assoc]
    exact .enter located directory new inside (ih second)
  | take file later ih => exact .take file (ih second)
  | skip closed other later ih => exact .skip closed other (ih second)

theorem visited_eq (run : tree.Visits paths found visits after) :
    after.visited = found.visited ++ visits.map Prod.snd := by
  induction run with
  | done => simp
  | again located directory known later ih => exact ih
  | enter located directory new inside later ihInside ih => simp [ih, ihInside]
  | take file later ih => exact ih
  | skip closed other later ih => exact ih

theorem visited_subset (run : tree.Visits paths found visits after) :
    found.visited ⊆ after.visited := by
  rw [run.visited_eq]
  exact List.subset_append_left _ _

theorem isProper (run : tree.Visits paths found visits after) (proper : found.IsProper tree) :
    after.IsProper tree := by
  induction run with
  | done => exact proper
  | again located directory known later ih => exact ih proper
  | enter located directory new inside later ihInside ih =>
    exact ih (ihInside (proper.enter directory new))
  | @take path _ _ _ _ file later ih => exact ih (proper.take path)
  | skip closed other later ih => exact ih proper

theorem files_perm (run : tree.Visits paths found visits after) :
    after.files.Perm (found.files ++ paths.filter tree.isMapping ++ visits.flatMap fun visit =>
      ((tree.names visit.2).map (Path.join visit.1)).filter tree.isMapping) := by
  induction run with
  | done => simp
  | again located directory known later ih =>
    rwa [List.filter_cons_of_neg]
    simp [isMapping_of_isDirectoryAt located directory]
  | enter located directory new inside later ihInside ih =>
    rw [List.filter_cons_of_neg (by simp [isMapping_of_isDirectoryAt located directory])]
    rw [List.perm_iff_count] at ih ihInside ⊢
    intro file
    have counted := ih file
    have countedInside := ihInside file
    simp only [List.count_append, List.flatMap_cons, List.flatMap_append] at counted countedInside ⊢
    omega
  | take file later ih =>
    rw [List.filter_cons_of_pos file]
    simpa using ih
  | skip closed other later ih =>
    rwa [List.filter_cons_of_neg (by simp [other])]

theorem mem_visited (run : tree.Visits paths found visits after) {next : FilePlace}
    (directory : tree.isDirectoryAt next) :
    (∀ path ∈ paths, tree.locate? path = some next → next ∈ after.visited) ∧
      ∀ visit ∈ visits, ∀ name ∈ tree.names visit.2,
        tree.locate? (Path.join visit.1 name) = some next → next ∈ after.visited := by
  induction run with
  | done => simp
  | again located _ known later ih =>
    refine ⟨List.forall_mem_cons.mpr ⟨fun here => ?_, ih.1⟩, ih.2⟩
    cases located.symm.trans here
    exact later.visited_subset known
  | @enter _ _ place _ _ _ _ _ located _ new inside later ihInside ih =>
    constructor
    · refine List.forall_mem_cons.mpr ⟨fun here => ?_, ih.1⟩
      cases located.symm.trans here
      exact later.visited_subset (inside.visited_subset (by simp))
    · rw [List.forall_mem_cons, List.forall_mem_append]
      refine ⟨fun name listed here => ?_, fun visit entered name listed here => ?_, ih.2⟩
      · exact later.visited_subset (ihInside.1 _ (List.mem_map_of_mem listed) here)
      · exact later.visited_subset (ihInside.2 visit entered name listed here)
  | take file later ih =>
    refine ⟨List.forall_mem_cons.mpr ⟨fun here => ?_, ih.1⟩, ih.2⟩
    rw [isMapping_of_isDirectoryAt here directory] at file
    contradiction
  | skip closed other later ih =>
    refine ⟨List.forall_mem_cons.mpr ⟨fun here => ?_, ih.1⟩, ih.2⟩
    rw [isDirectory_of_locate? here, directory] at closed
    contradiction

theorem exists_enter {rest : List Path} (run : tree.Visits (path :: rest) found visits after)
    (located : tree.locate? path = some place) (directory : tree.isDirectoryAt place)
    (new : place ∉ found.visited) :
    ∃ below others middle, visits = (path, place) :: (below ++ others) ∧
      tree.Visits ((tree.names place).map (Path.join path))
        { found with visited := found.visited ++ [place] } below middle := by
  cases run with
  | again located' _ known _ =>
    cases located.symm.trans located'
    exact absurd known new
  | enter located' _ _ inside _ =>
    cases located.symm.trans located'
    exact ⟨_, _, _, rfl, inside⟩
  | take file _ => simp [isMapping_of_isDirectoryAt located directory] at file
  | skip closed _ _ => simp [isDirectory_of_locate? located, directory] at closed

theorem unique {others : List (Path × FilePlace)} {last : Walk}
    (run : tree.Visits paths found visits after) (other : tree.Visits paths found others last) :
    visits = others ∧ after = last := by
  induction run generalizing others last with
  | done =>
    cases other
    exact ⟨rfl, rfl⟩
  | again located directory known later ih =>
    cases other with
    | again _ _ _ later' => exact ih later'
    | enter located' _ new _ _ =>
      cases located.symm.trans located'
      exact absurd known new
    | take file _ => simp [isMapping_of_isDirectoryAt located directory] at file
    | skip closed _ _ => simp [isDirectory_of_locate? located, directory] at closed
  | enter located directory new inside later ihInside ih =>
    cases other with
    | again located' _ known _ =>
      cases located.symm.trans located'
      exact absurd known new
    | enter located' _ _ inside' later' =>
      cases located.symm.trans located'
      obtain ⟨rfl, rfl⟩ := ihInside inside'
      obtain ⟨rfl, rfl⟩ := ih later'
      exact ⟨rfl, rfl⟩
    | take file _ => simp [isMapping_of_isDirectoryAt located directory] at file
    | skip closed _ _ => simp [isDirectory_of_locate? located, directory] at closed
  | take file later ih =>
    cases other with
    | again located directory _ _ => simp [isMapping_of_isDirectoryAt located directory] at file
    | enter located directory _ _ _ => simp [isMapping_of_isDirectoryAt located directory] at file
    | take _ later' => exact ih later'
    | skip _ other _ => simp [other] at file
  | skip closed other later ih =>
    cases other with
    | again located directory _ _ => simp [isDirectory_of_locate? located, directory] at closed
    | enter located directory _ _ _ => simp [isDirectory_of_locate? located, directory] at closed
    | take file _ => simp [other] at file
    | skip _ _ later' => exact ih later'

end Visits

theorem mem_places_of_isDirectoryAt (directory : tree.isDirectoryAt place) :
    place ∈ [] :: tree.nodes.map Prod.fst := by
  by_cases root : place = []
  · exact root ▸ List.mem_cons_self
  · have found : tree.nodes.lookup place = some .directory := by
      simpa [isDirectoryAt, node?, root] using directory
    obtain ⟨before, after, split, _⟩ := List.lookup_eq_some_iff.mp found
    simp [split]

theorem Walk.IsProper.length_le {found : Walk} (proper : found.IsProper tree)
    (directory : tree.isDirectoryAt place) (new : place ∉ found.visited) :
    found.visited.length ≤ tree.nodes.length := by
  have distinct : (place :: found.visited).Nodup := List.nodup_cons.mpr ⟨new, proper.nodup⟩
  have among : place :: found.visited ⊆ [] :: tree.nodes.map Prod.fst := by
    rw [List.cons_subset]
    exact ⟨mem_places_of_isDirectoryAt directory,
      fun other present => mem_places_of_isDirectoryAt (proper.directories other present)⟩
  simpa using (distinct.subperm among).length_le

def visit (tree : FileTree) (fuel : Nat) (found : Walk) (path : Path) : Walk :=
  if tree.isDirectory path then tree.walk fuel path found
  else if tree.isMapping path then { found with files := found.files ++ [path] }
  else found

theorem walk_succ_of_not_mem {fuel : Nat} {found : Walk} (located : tree.locate? path = some place)
    (new : place ∉ found.visited) :
    tree.walk (fuel + 1) path found =
      ((tree.names place).map (Path.join path)).foldl (tree.visit fuel)
        { found with visited := found.visited ++ [place] } := by
  rw [walk, located]
  dsimp only
  rw [if_neg new, List.foldl_map]
  rfl

theorem walk_of_mem {fuel : Nat} {found : Walk} (located : tree.locate? path = some place)
    (known : place ∈ found.visited) : tree.walk fuel path found = found := by
  cases fuel with
  | zero => rfl
  | succ fuel =>
    rw [walk, located]
    exact if_pos known

theorem exists_visits_foldl {fuel : Nat}
    (walks : ∀ {path : Path} {found : Walk}, found.IsProper tree →
      tree.nodes.length < fuel + found.visited.length → tree.isDirectory path →
        ∃ visits, tree.Visits [path] found visits (tree.walk fuel path found))
    (paths : List Path) {found : Walk} (proper : found.IsProper tree)
    (enough : tree.nodes.length < fuel + found.visited.length) :
    ∃ visits, tree.Visits paths found visits (paths.foldl (tree.visit fuel) found) := by
  induction paths generalizing found with
  | nil => exact ⟨[], .done⟩
  | cons path rest ih =>
    rw [List.foldl_cons, visit]
    by_cases directory : tree.isDirectory path
    · rw [if_pos directory]
      obtain ⟨visits, run⟩ := walks proper enough directory
      have grown : found.visited.length ≤ (tree.walk fuel path found).visited.length := by
        rw [run.visited_eq, List.length_append]
        exact Nat.le_add_right _ _
      obtain ⟨others, later⟩ := ih (run.isProper proper) (by omega)
      exact ⟨visits ++ others, run.append later⟩
    · rw [if_neg directory]
      by_cases file : tree.isMapping path
      · rw [if_pos file]
        obtain ⟨visits, later⟩ := ih (proper.take path) enough
        exact ⟨visits, .take file later⟩
      · rw [if_neg file]
        obtain ⟨visits, later⟩ := ih proper enough
        exact ⟨visits, .skip (by simpa using directory) (by simpa using file) later⟩

/-- A walk is not cut short where as many directories can be entered one below another as are
left. -/
theorem exists_visits_walk {fuel : Nat} {found : Walk} (proper : found.IsProper tree)
    (enough : tree.nodes.length < fuel + found.visited.length)
    (directory : tree.isDirectory path) :
    ∃ visits, tree.Visits [path] found visits (tree.walk fuel path found) := by
  induction fuel generalizing path found with
  | zero =>
    obtain ⟨place, located, directory⟩ := isDirectory_iff.mp directory
    have known : place ∈ found.visited := by
      by_contra new
      have bounded := proper.length_le directory new
      omega
    exact ⟨[], .again located directory known .done⟩
  | succ fuel ih =>
    obtain ⟨place, located, directory⟩ := isDirectory_iff.mp directory
    by_cases known : place ∈ found.visited
    · rw [walk_of_mem located known]
      exact ⟨[], .again located directory known .done⟩
    · rw [walk_succ_of_not_mem located known]
      obtain ⟨below, inside⟩ := exists_visits_foldl ih
        ((tree.names place).map (Path.join path)) (proper.enter directory known) (by simp; omega)
      exact ⟨(path, place) :: (below ++ []), .enter located directory known inside .done⟩

end Visibility.FileTree
