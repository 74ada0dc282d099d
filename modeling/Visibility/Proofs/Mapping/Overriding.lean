import Visibility.Proofs.Mapping.Merging

set_option autoImplicit false
set_option relaxedAutoImplicit false

/-!
Which value a limit of a field has, where several trees set it.

The walk goes through the groups of each type in turn, and the last tree that sets the limit decides.
In a merged definition the trees of a later definition stand behind the earlier ones of their group, and
before those of the next group: they override the earlier ones group by group.
-/

namespace Visibility

/-- A limit of an entry that is not set at first; a change that sets it replaces what it was. -/
structure Setting (α : Type) where
  read : Entry → Option α
  given? : EntryChange → Option α
  unset : ∀ field, read { name := field } = none
  read_apply : ∀ entry change, read (entry.apply change) = (given? change).or (read entry)

namespace Setting

def maxDepth : Setting Nat where
  read := Entry.maxDepth
  given?
    | .maxDepth depth => some depth
    | .touch | .tag _ | .serializedName _ | .ignore _ => none
  unset _ := rfl
  read_apply entry change := by cases change <;> rfl

def serializedName : Setting String where
  read := Entry.serializedName
  given?
    | .serializedName name => some name
    | .touch | .tag _ | .maxDepth _ | .ignore _ => none
  unset _ := rfl
  read_apply entry change := by cases change <;> rfl

variable {α : Type} (setting : Setting α)

theorem read_changed (field : String) (previous? : Option Entry) (changes : List EntryChange) :
    (Entry.changed field previous? changes).bind setting.read =
      (changes.filterMap setting.given?).getLast?.or (previous?.bind setting.read) := by
  induction changes generalizing previous? with
  | nil => rfl
  | cons change changes ih =>
    have before : setting.read (previous?.getD { name := field }) = previous?.bind setting.read := by
      cases previous? with
      | none => exact setting.unset field
      | some entry => rfl
    rw [Entry.changed_cons, ih, Option.bind_some, setting.read_apply, before]
    cases given : setting.given? change with
    | none => rw [List.filterMap_cons_none given, Option.none_or]
    | some value =>
      rw [List.filterMap_cons_some given, List.getLast?_cons]
      cases (changes.filterMap setting.given?).getLast? <;> rfl

def givenBy (ref : FieldRef) (steps : List Step) : List α :=
  steps.filterMap fun step => (step.changeAt? ref).bind setting.given?

def ofTree (resolver : Resolver) (ref : FieldRef) (scope : Scope) (tree : Tree) : List α :=
  setting.givenBy ref ((Walk.Part.steps resolver (.tree scope tree)).toOption.getD [])

end Setting

def Tables.setting? {α : Type} (tables : Tables) (setting : Setting α) (ref : FieldRef) : Option α :=
  (tables.entryAt? ref).bind setting.read

theorem Tables.setting?_ofSteps {α : Type} (setting : Setting α) (steps : List Step)
    (ref : FieldRef) :
    (ofSteps steps).setting? setting ref = (setting.givenBy ref steps).getLast? := by
  rw [setting?, entryAt?_ofSteps, setting.read_changed, Option.bind_none, Option.or_none,
    List.filterMap_filterMap]
  rfl

namespace Definition

variable {α : Type} {definition later : Definition} {resolver : Resolver}

def only (definition : Definition) (scope : Scope) : Definition :=
  Definition.empty.append scope.root scope.group (definition.trees scope.root scope.group)

def setting? (definition : Definition) (resolver : Resolver) (setting : Setting α) (ref : FieldRef) :
    Option α :=
  (definition.tables resolver).toOption.bind (·.setting? setting ref)

def givenIn (definition : Definition) (resolver : Resolver) (setting : Setting α) (ref : FieldRef)
    (scope : Scope) : List α :=
  (definition.trees scope.root scope.group).flatMap (setting.ofTree resolver ref scope)

variable {setting : Setting α} {ref : FieldRef} {scope : Scope}

theorem setting?_eq_of_steps {steps : List Step} (walked : definition.steps resolver = .ok steps) :
    definition.setting? resolver setting ref =
      (definition.scopes.flatMap (definition.givenIn resolver setting ref)).getLast? := by
  have built : (definition.tables resolver).toOption = some (.ofSteps steps) :=
    Except.toOption_eq_some_iff.mpr (tables_eq_ok_iff.mpr ⟨steps, walked, rfl⟩)
  have inOrder : setting.givenBy ref steps =
      definition.scopes.flatMap (definition.givenIn resolver setting ref) := by
    rw [steps_eq_collect] at walked
    rw [Walk.collect_eq_flatMap walked, Setting.givenBy, List.filterMap_flatMap]
    exact flatMap_parts (fun part =>
      setting.givenBy ref ((Walk.Part.steps resolver part).toOption.getD [])) fun _ => rfl
  rw [setting?, built, Option.bind_some, Tables.setting?_ofSteps, inOrder]

theorem givenIn_eq_nil (undeclared : scope ∉ definition.scopes) :
    definition.givenIn resolver setting ref scope = [] := by
  rw [givenIn, trees_eq_nil undeclared, List.flatMap_nil]

theorem givenIn_merge :
    (definition.merge later).givenIn resolver setting ref scope =
      definition.givenIn resolver setting ref scope ++ later.givenIn resolver setting ref scope := by
  rw [givenIn, trees_merge, List.flatMap_append]
  rfl

theorem parts_only :
    (definition.only scope).parts =
      .table scope.root :: (definition.trees scope.root scope.group).map (.tree scope) := by
  simp [parts, only, append, empty, Dict.empty, Dict.alter, Assoc.alter]

theorem groupsOf_only :
    (definition.only scope).groupsOf scope.root =
      Dict.alter .empty scope.group fun trees? =>
        trees?.getD [] ++ definition.trees scope.root scope.group := by
  rw [only, append, groupsOf, Dict.get?_alter, if_pos rfl]
  rfl

theorem trees_only :
    (definition.only scope).trees scope.root scope.group =
      definition.trees scope.root scope.group := by
  rw [trees_eq_getD, groupsOf_only, Dict.get?_alter, if_pos rfl]
  rfl

theorem scopes_only : (definition.only scope).scopes = [scope] := by
  have one : (definition.only scope).typeNames = [scope.root] := rfl
  rw [scopes, one, List.flatMap_singleton, groupsOf_only, Dict.keys_alter]
  rfl

theorem exists_steps_only {steps : List Step} (walked : definition.steps resolver = .ok steps)
    (scope : Scope) : ∃ own, (definition.only scope).steps resolver = .ok own := by
  rw [steps_eq_collect] at walked ⊢
  rw [Walk.exists_collect_iff, parts_only]
  intro part present
  rcases List.mem_cons.mp present with rfl | inGroup
  · exact ⟨_, rfl⟩
  · obtain ⟨tree, declared, rfl⟩ := List.mem_map.mp inGroup
    exact Walk.exists_of_collect walked _ (tree_mem_parts_iff.mpr declared)

theorem setting?_only {steps : List Step} (walked : definition.steps resolver = .ok steps) :
    (definition.only scope).setting? resolver setting ref =
      (definition.givenIn resolver setting ref scope).getLast? := by
  obtain ⟨own, walkedOnly⟩ := exists_steps_only walked scope
  rw [setting?_eq_of_steps walkedOnly, scopes_only, List.flatMap_singleton, givenIn, trees_only]
  rfl

theorem setting?_eq_findSome? {steps : List Step} (walked : definition.steps resolver = .ok steps) :
    definition.setting? resolver setting ref =
      definition.scopes.reverse.findSome? fun scope =>
        (definition.only scope).setting? resolver setting ref := by
  rw [setting?_eq_of_steps walked, List.getLast?_flatMap]
  simp only [setting?_only walked]

theorem setting?_of_group {steps : List Step} (walked : definition.steps resolver = .ok steps)
    (elsewhere : ∀ other, other ≠ scope → (definition.only other).setting? resolver setting ref = none) :
    definition.setting? resolver setting ref =
      (definition.only scope).setting? resolver setting ref := by
  rw [setting?_eq_findSome? walked]
  cases found : (definition.only scope).setting? resolver setting ref with
  | none =>
    refine List.findSome?_eq_none_iff.mpr fun other _ => ?_
    by_cases same : other = scope
    · rw [same, found]
    · exact elsewhere other same
  | some value =>
    -- before its first place in the order, no other group gives a value
    have declared : scope ∈ definition.scopes.reverse := by
      rw [List.mem_reverse]
      by_contra undeclared
      rw [setting?_only walked, givenIn_eq_nil undeclared] at found
      contradiction
    obtain ⟨before, after, split, first⟩ := List.eq_append_cons_of_mem declared
    refine List.findSome?_eq_some_iff.mpr ⟨before, scope, after, split, found, fun other present => ?_⟩
    exact elsewhere other fun same => first (same ▸ present)

section Merging

variable {merged first second : List Step}

theorem setting?_only_merge (walked : (definition.merge later).steps resolver = .ok merged)
    (walkedFirst : definition.steps resolver = .ok first)
    (walkedSecond : later.steps resolver = .ok second) (setting : Setting α) (ref : FieldRef)
    (scope : Scope) :
    ((definition.merge later).only scope).setting? resolver setting ref =
      ((later.only scope).setting? resolver setting ref).or
        ((definition.only scope).setting? resolver setting ref) := by
  rw [setting?_only walked, setting?_only walkedFirst, setting?_only walkedSecond, givenIn_merge,
    List.getLast?_append]

theorem setting?_merge_of_unset (walked : (definition.merge later).steps resolver = .ok merged)
    (walkedFirst : definition.steps resolver = .ok first)
    (walkedSecond : later.steps resolver = .ok second)
    (unset : later.setting? resolver setting ref = none) :
    (definition.merge later).setting? resolver setting ref =
      definition.setting? resolver setting ref := by
  rw [setting?_eq_of_steps walkedSecond, List.getLast?_eq_none_iff, List.flatMap_eq_nil_iff] at unset
  -- no later tree gives a value, so the groups that are new in the merged definition give none
  have none_ (scope : Scope) : later.givenIn resolver setting ref scope = [] := by
    by_cases declared : scope ∈ later.scopes
    · exact unset scope declared
    · exact givenIn_eq_nil declared
  have same : (definition.merge later).givenIn resolver setting ref =
      definition.givenIn resolver setting ref := by
    funext scope
    rw [givenIn_merge, none_, List.append_nil]
  rw [setting?_eq_of_steps walked, setting?_eq_of_steps walkedFirst, same,
    flatMap_scopes_merge fun scope => givenIn_eq_nil]

end Merging

/-- How a limit of a field is set, where a later definition is merged into an earlier one. -/
structure OverridesAt (definition later : Definition) (resolver : Resolver) (setting : Setting α)
    (ref : FieldRef) : Prop where
  /-- The last group in which either definition sets the limit decides, and in that group the later
  trees, if they set it. -/
  lastGroup : (definition.merge later).setting? resolver setting ref =
    (definition.merge later).scopes.reverse.findSome? fun scope =>
      ((later.only scope).setting? resolver setting ref).or
        ((definition.only scope).setting? resolver setting ref)
  unset : later.setting? resolver setting ref = none →
    (definition.merge later).setting? resolver setting ref =
      definition.setting? resolver setting ref
  oneGroup : ∀ scope,
    (∀ other, other ≠ scope → (later.only other).setting? resolver setting ref = none ∧
      (definition.only other).setting? resolver setting ref = none) →
    (definition.merge later).setting? resolver setting ref =
      (later.setting? resolver setting ref).or (definition.setting? resolver setting ref)

theorem overridesAt_of_steps {first second : List Step}
    (walkedFirst : definition.steps resolver = .ok first)
    (walkedSecond : later.steps resolver = .ok second) (setting : Setting α) (ref : FieldRef) :
    definition.OverridesAt later resolver setting ref := by
  obtain ⟨merged, walked⟩ := exists_steps_merge_iff.mpr ⟨⟨first, walkedFirst⟩, second, walkedSecond⟩
  have inGroup := setting?_only_merge walked walkedFirst walkedSecond setting ref
  constructor
  case lastGroup =>
    rw [setting?_eq_findSome? walked]
    simp only [inGroup]
  case unset => exact setting?_merge_of_unset walked walkedFirst walkedSecond
  case oneGroup =>
    intro scope elsewhere
    have alone (other : Scope) (differ : other ≠ scope) :
        ((definition.merge later).only other).setting? resolver setting ref = none := by
      obtain ⟨inLater, inEarlier⟩ := elsewhere other differ
      rw [inGroup, inLater, inEarlier, Option.or_none]
    -- the group decides in each of the three definitions
    rw [setting?_of_group walked alone, inGroup,
      setting?_of_group walkedFirst fun other differ => (elsewhere other differ).2,
      setting?_of_group walkedSecond fun other differ => (elsewhere other differ).1]

/-- Merged into an earlier definition, a later one overrides the depths and the names of the earlier one
group by group. -/
theorem overridesAt_merge {earlierTables laterTables : Tables}
    (built : definition.tables resolver = .ok earlierTables)
    (builtLater : later.tables resolver = .ok laterTables) :
    (∃ tables, (definition.merge later).tables resolver = .ok tables) ∧
    (∀ scope, (∃ tables, (definition.only scope).tables resolver = .ok tables) ∧
      ∃ tables, (later.only scope).tables resolver = .ok tables) ∧
    ∀ ref, definition.OverridesAt later resolver .maxDepth ref ∧
      definition.OverridesAt later resolver .serializedName ref := by
  obtain ⟨first, walkedFirst, _⟩ := tables_eq_ok_iff.mp built
  obtain ⟨second, walkedSecond, _⟩ := tables_eq_ok_iff.mp builtLater
  refine ⟨?_, fun scope => ⟨?_, ?_⟩, fun ref => ⟨?_, ?_⟩⟩
  · exact exists_tables_iff.mpr
      (exists_steps_merge_iff.mpr ⟨⟨first, walkedFirst⟩, second, walkedSecond⟩)
  · exact exists_tables_iff.mpr (exists_steps_only walkedFirst scope)
  · exact exists_tables_iff.mpr (exists_steps_only walkedSecond scope)
  · exact overridesAt_of_steps walkedFirst walkedSecond .maxDepth ref
  · exact overridesAt_of_steps walkedFirst walkedSecond .serializedName ref

def titleTree (depth : Nat) (name : String) : Tree :=
  [(.string "title", .mapping
    [(.string "_maxDepth", .number (.int depth)), (.string "_serializedName", .string name)])]

/-- Books with limits in the second of two groups; `deepBooks` has others in the first. -/
def shallowBooks : Definition :=
  (Definition.empty.push "Book" "collection.normalization.get" [(.string "title", .null)]).push
    "Book" "item.normalization.get" (titleTree 1 "one")

def deepBooks : Definition :=
  Definition.empty.push "Book" "collection.normalization.get" (titleTree 2 "two")

theorem overridesAt_merge_deepBooks :
    shallowBooks.OverridesAt deepBooks bookResolver .maxDepth ⟨"Book", "title"⟩ ∧
      shallowBooks.OverridesAt deepBooks bookResolver .serializedName ⟨"Book", "title"⟩ := by
  obtain ⟨shallow, built⟩ : ∃ tables, shallowBooks.tables bookResolver = .ok tables :=
    Except.exists_of_isOk (by decide +kernel)
  obtain ⟨deep, builtLater⟩ : ∃ tables, deepBooks.tables bookResolver = .ok tables :=
    Except.exists_of_isOk (by decide +kernel)
  exact (overridesAt_merge built builtLater).2.2 ⟨"Book", "title"⟩

/-- Whether a limit is what the later definition gives, wherever it gives one. -/
def LaterDecides (setting : Setting α) : Prop :=
  ∀ (resolver : Resolver) (definition later : Definition) (ref : FieldRef),
    (definition.tables resolver).isOk → (later.tables resolver).isOk →
    (definition.merge later).setting? resolver setting ref =
      (later.setting? resolver setting ref).or (definition.setting? resolver setting ref)

/-- A limit that the earlier definition sets in a group further on is not overridden. -/
theorem not_laterDecides : ¬ LaterDecides .maxDepth ∧ ¬ LaterDecides .serializedName := by
  have built : (shallowBooks.tables bookResolver).isOk := by decide +kernel
  have builtLater : (deepBooks.tables bookResolver).isOk := by decide +kernel
  constructor
  · intro decides
    have depth := decides bookResolver shallowBooks deepBooks ⟨"Book", "title"⟩ built builtLater
    have merged : (shallowBooks.merge deepBooks).setting? bookResolver .maxDepth
        ⟨"Book", "title"⟩ = some 1 := by decide +kernel
    have later : deepBooks.setting? bookResolver .maxDepth ⟨"Book", "title"⟩ = some 2 := by
      decide +kernel
    rw [merged, later] at depth
    contradiction
  · intro decides
    have name := decides bookResolver shallowBooks deepBooks ⟨"Book", "title"⟩ built builtLater
    have merged : (shallowBooks.merge deepBooks).setting? bookResolver .serializedName
        ⟨"Book", "title"⟩ = some "one" := by decide +kernel
    have later : deepBooks.setting? bookResolver .serializedName ⟨"Book", "title"⟩ =
        some "two" := by decide +kernel
    rw [merged, later, Option.some_or] at name
    exact absurd name (by decide)

end Definition

end Visibility
