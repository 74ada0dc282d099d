import Visibility.Proofs.Mapping.Declared
import Visibility.Proofs.Mapping.Listing

set_option autoImplicit false
set_option relaxedAutoImplicit false

/-!
The tags of the mapped types are the tags of the fields, whatever the trees.

A field may get its entry before its tag, from a level further in; along `Walk.Yields` it is shown that
the tag does come.
-/

namespace Visibility

namespace Walk

variable {allowed : String → Prop} {resolver : Resolver} {scope : Scope} {owner : Option String}
  {parent : Option FieldRef} {steps : List Step} {ref : FieldRef}

theorem eq_of_mem_fieldSteps {at_ : FieldRef} {condition : Option String} {deferred : Bool}
    {step : Step} (present : step ∈ fieldSteps scope at_ condition deferred)
    (changes : (step.changeAt? ref).isSome) : at_ = ref := by
  unfold fieldSteps at present
  split at present
  · cases List.mem_singleton.mp present
    simpa [Step.changeAt?] using changes
  · simp only [List.mem_cons, List.not_mem_nil, or_false] at present
    rcases present with rfl | rfl | rfl
    · simpa [Step.changeAt?] using changes
    · simpa [Step.changeAt?] using changes
    · contradiction

theorem Yields.tagged_of_changed (yields : Yields allowed resolver scope owner parent steps)
    {step : Step} (present : step ∈ steps) (changes : (step.changeAt? ref).isSome) :
    parent = some ref ∨ ∃ tag, .tag ref tag ∈ steps := by
  induction yields with
  | nil => contradiction
  | append _ _ first second =>
    rcases List.mem_append.mp present with inFirst | inSecond
    · rcases first inFirst with around | ⟨tag, given⟩
      · exact .inl around
      · exact .inr ⟨tag, List.mem_append_left _ given⟩
    · rcases second inSecond with around | ⟨tag, given⟩
      · exact .inl around
      · exact .inr ⟨tag, List.mem_append_right _ given⟩
  | security =>
    left
    simp only [List.mem_cons, List.not_mem_nil, or_false] at present
    rcases present with rfl | rfl
    · simpa [Step.changeAt?] using changes
    · contradiction
  | limit _ own =>
    left
    cases List.mem_singleton.mp present
    exact congrArg some (Step.eq_of_isSome_changeAt? own changes)
  | @field _ _ at_ condition deferred more _ _ _ tagged below =>
    right
    -- the field is tagged at once, or else below
    have own : ∃ tag, .tag at_ tag ∈ fieldSteps scope at_ condition deferred ++ more := by
      cases deferred with
      | true =>
        obtain ⟨tag, given⟩ := tagged rfl
        exact ⟨tag, List.mem_append_right _ given⟩
      | false => exact ⟨scope.tag condition, by simp [fieldSteps]⟩
    rcases List.mem_append.mp present with here | deeper
    · exact eq_of_mem_fieldSteps here changes ▸ own
    · rcases below deeper with around | ⟨tag, given⟩
      · exact Option.some.inj around ▸ own
      · exact ⟨tag, List.mem_append_right _ given⟩

theorem Yields.allowed_of_tag (yields : Yields allowed resolver scope owner parent steps)
    {tag : Tag} (given : .tag ref tag ∈ steps) : ∀ condition ∈ tag.condition, allowed condition := by
  induction yields with
  | nil => contradiction
  | append _ _ first second =>
    rcases List.mem_append.mp given with inFirst | inSecond
    · exact first inFirst
    · exact second inSecond
  | security allows =>
    simp only [List.mem_cons, Step.tag.injEq, List.not_mem_nil, reduceCtorEq, or_false] at given
    rw [given.2]
    rintro _ ⟨⟩
    exact allows
  | limit limits =>
    cases List.mem_singleton.mp given
    cases limits
  | @field _ _ at_ condition deferred _ _ allows _ _ below =>
    rcases List.mem_append.mp given with here | deeper
    · cases deferred with
      | true => simp [fieldSteps] at here
      | false =>
        simp only [fieldSteps, Bool.false_eq_true, if_false, List.mem_cons, Step.tag.injEq,
          List.not_mem_nil, reduceCtorEq, or_false, false_or] at here
        rw [here.2]
        exact allows
    · exact below deeper

end Walk

/-- Tables in which the tags of the mapped types are those of the fields. -/
structure Definition.Covers (definition : Definition) (tables : Tables) : Prop where
  tagged : ∀ type table, tables.get? type = some table →
    ∀ entry ∈ table.entries, ∃ text, text ∈ entry.groups
  listed : ∀ text, (∃ ref, tables.Tagged ref text) ↔
    ∃ type ∈ definition.typeNames, tables.Lists type text
  /-- A tag of a type names a group that is declared for the type, and no empty condition. -/
  spelled : ∀ type text, tables.Lists type text → ∃ group ∈ (definition.groupsOf type).keys,
    text = type ++ ":" ++ group ∨
      ∃ condition, condition ≠ "" ∧ text = type ++ ":" ++ group ++ ":" ++ condition
  /-- Types that only nested fields lead to list no tags. -/
  unmapped : ∀ type table, type ∉ definition.typeNames → tables.get? type = some table →
    table.allGroups = .empty

namespace Definition

variable {definition : Definition} {resolver : Resolver} {steps : List Step} {tag : Tag}

theorem declares_of_catchAll_mem_steps (walked : definition.steps resolver = .ok steps)
    (present : .catchAll tag ∈ steps) : tag.group ∈ (definition.groupsOf tag.type).keys := by
  obtain ⟨type, group, own, declared, yields, inOwn, _⟩ :=
    exists_yields_of_mem_steps walked present nofun
  obtain ⟨ref, given⟩ := (yields.paired.listed tag).mp inOwn
  obtain ⟨condition, rfl⟩ := yields.paired.ofScope ref tag given
  have walkedScope : Scope.mk type group ∈ definition.scopes := by
    by_contra undeclared
    exact declared (trees_eq_nil undeclared)
  exact mem_scopes_iff.mp walkedScope

theorem allowed_of_tag_mem_steps {allowed : String → Prop} {ref : FieldRef}
    (joins : ∀ type group, ∀ tree ∈ definition.trees type group, tree.Joins allowed)
    (walked : definition.steps resolver = .ok steps) (given : .tag ref tag ∈ steps) :
    ∀ condition ∈ tag.condition, allowed condition := by
  obtain ⟨_, _, own, _, yields, inOwn, _⟩ := exists_yields_of_joins joins walked given nofun
  exact yields.allowed_of_tag inOwn

theorem condition_ne_of_tag_mem_steps {ref : FieldRef}
    (walked : definition.steps resolver = .ok steps) (given : .tag ref tag ∈ steps) :
    tag.condition ≠ some "" := by
  have filled := allowed_of_tag_mem_steps (fun _ _ tree _ => tree.joins_ne_empty) walked given
  exact fun empty => filled "" empty rfl

theorem exists_tag_of_changed {ref : FieldRef} {step : Step}
    (walked : definition.steps resolver = .ok steps) (present : step ∈ steps)
    (changes : (step.changeAt? ref).isSome) : ∃ tag, .tag ref tag ∈ steps := by
  have other (type : String) : step ≠ .table type := by
    rintro rfl
    contradiction
  obtain ⟨_, _, own, _, yields, inOwn, among⟩ := exists_yields_of_mem_steps walked present other
  rcases yields.tagged_of_changed inOwn changes with around | ⟨tag, given⟩
  · contradiction
  · exact ⟨tag, among given⟩

theorem exists_mem_groups {ref : FieldRef} {entry : Entry}
    (walked : definition.steps resolver = .ok steps)
    (entered : (Tables.ofSteps steps).entryAt? ref = some entry) : ∃ text, text ∈ entry.groups := by
  obtain ⟨step, present, changes⟩ := (Tables.isSome_entryAt?_ofSteps_iff steps ref).mp
    (Option.isSome_of_eq_some entered)
  obtain ⟨tag, given⟩ := exists_tag_of_changed walked present changes
  obtain ⟨_, same, carried⟩ := (Tables.tagged_ofSteps_iff steps ref tag.text).mpr ⟨tag, given, rfl⟩
  cases entered.symm.trans same
  exact ⟨tag.text, carried⟩

theorem exists_tag_of_lists {type text : String} (walked : definition.steps resolver = .ok steps)
    (lists : (Tables.ofSteps steps).Lists type text) :
    ∃ tag ref, .tag ref tag ∈ steps ∧ tag.text = text ∧ tag.type = type ∧
      tag.group ∈ (definition.groupsOf type).keys := by
  obtain ⟨tag, present, rfl, rfl⟩ := (Tables.lists_ofSteps_iff steps type text).mp lists
  obtain ⟨ref, given⟩ := (catchAll_mem_steps_iff walked tag).mp present
  exact ⟨tag, ref, given, rfl, rfl, declares_of_catchAll_mem_steps walked present⟩

/-- In the tables of a definition, every entry is tagged, the tags of the entries are those that the
mapped types list, each of which names a declared group of the type, and no other types list any. -/
theorem covers_tables {tables : Tables} (built : definition.tables resolver = .ok tables) :
    definition.Covers tables := by
  obtain ⟨steps, walked, rfl⟩ := tables_eq_ok_iff.mp built
  constructor
  case tagged =>
    intro type table found _ present
    obtain ⟨⟨field, entry⟩, inTable, rfl⟩ := List.mem_map.mp present
    have entered : (Tables.ofSteps steps).entryAt? ⟨type, field⟩ = some entry := by
      rw [Tables.entryAt?, found]
      exact table.attributes.mem_entries_iff.mp inTable
    exact exists_mem_groups walked entered
  case listed =>
    intro text
    constructor
    · rintro ⟨ref, carried⟩
      obtain ⟨tag, given, rfl⟩ := (Tables.tagged_ofSteps_iff steps ref text).mp carried
      have present : .catchAll tag ∈ steps := (catchAll_mem_steps_iff walked tag).mpr ⟨ref, given⟩
      exact ⟨tag.type, mem_typeNames_of_declares (declares_of_catchAll_mem_steps walked present),
        (Tables.lists_ofSteps_iff steps _ _).mpr ⟨tag, present, rfl, rfl⟩⟩
    · rintro ⟨type, _, lists⟩
      obtain ⟨tag, ref, given, rfl, _⟩ := exists_tag_of_lists walked lists
      exact ⟨ref, (Tables.tagged_ofSteps_iff steps ref _).mpr ⟨tag, given, rfl⟩⟩
  case spelled =>
    intro type text lists
    obtain ⟨⟨_, group, condition?⟩, ref, given, rfl, rfl, declared⟩ :=
      exists_tag_of_lists walked lists
    have filled := condition_ne_of_tag_mem_steps walked given
    refine ⟨group, declared, ?_⟩
    cases condition? with
    | none => exact .inl rfl
    | some condition => exact .inr ⟨condition, fun same => filled (congrArg some same), rfl⟩
  case unmapped =>
    intro type table unmapped found
    refine OrderedSet.ext (List.eq_nil_iff_forall_not_mem.mpr fun text present => unmapped ?_)
    obtain ⟨_, _, _, _, _, declared⟩ := exists_tag_of_lists walked ⟨table, found, present⟩
    exact mem_typeNames_of_declares declared

theorem covers_tables_guardedBooks :
    ∃ tables, guardedBooks.tables bookResolver = .ok tables ∧ guardedBooks.Covers tables := by
  obtain ⟨tables, built⟩ := exists_tables_guardedBooks
  exact ⟨tables, built, covers_tables built⟩

end Definition

end Visibility
