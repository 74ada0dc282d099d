import Visibility.Mapping.Registry
import Visibility.Proofs.Mapping.Coverage
import Visibility.Proofs.Resolver.Known

set_option autoImplicit false
set_option relaxedAutoImplicit false

/-!
The tables of a registry stand where they belong.

Tables and entries are made where they are first needed, each under the name it is looked up by.  A type
without a mapping gets a table only from a field of it, which the walk comes to only where another field
leads to the type; so the type is a known one, and its table is not empty.
-/

namespace Visibility

theorem Resolver.known_of_fieldType? {resolver : Resolver} {owner field type : String}
    (leads : resolver.fieldType? owner field = some type) :
    resolver.introspector.typeExists type := by
  obtain ⟨candidate, named⟩ := exists_known?_of_fieldType? leads
  obtain ⟨_, _, names⟩ := known?_eq_some_iff.mp named
  cases names with
  | whole known => exact known
  | qualified _ _ known => exact known

/-- Every step below a type lists a tag, or changes an entry of the field around the level, of the type
or of a type that some field leads to. -/
theorem Walk.Yields.lists_or_changes {allowed : String → Prop} {resolver : Resolver} {scope : Scope}
    {owner : Option String} {parent : Option FieldRef} {steps : List Step} {step : Step}
    (yields : Yields allowed resolver scope owner parent steps) (present : step ∈ steps) :
    (∃ tag, step = .catchAll tag) ∨ ∃ ref, (step.changeAt? ref).isSome ∧
      (parent = some ref ∨ resolver.Reaches owner ref.owner) := by
  induction yields with
  | nil => contradiction
  | append _ _ first second =>
    rcases List.mem_append.mp present with inFirst | inSecond
    · exact first inFirst
    · exact second inSecond
  | @security _ ref =>
    simp only [List.mem_cons, List.not_mem_nil, or_false] at present
    rcases present with rfl | rfl
    · exact .inr ⟨ref, by simp [Step.changeAt?], .inl rfl⟩
    · exact .inl ⟨_, rfl⟩
  | limit _ own =>
    cases List.mem_singleton.mp present
    exact .inr ⟨_, own, .inl rfl⟩
  | @field owner _ at_ condition deferred more reached _ _ _ below =>
    rcases List.mem_append.mp present with here | deeper
    · unfold fieldSteps at here
      split at here
      · cases List.mem_singleton.mp here
        exact .inr ⟨at_, by simp [Step.changeAt?], .inr reached⟩
      · simp only [List.mem_cons, List.not_mem_nil, or_false] at here
        rcases here with rfl | rfl | rfl
        · exact .inr ⟨at_, by simp [Step.changeAt?], .inr reached⟩
        · exact .inr ⟨at_, by simp [Step.changeAt?], .inr reached⟩
        · exact .inl ⟨_, rfl⟩
    · rcases below deeper with lists | ⟨ref, changes, around | leads | elsewhere⟩
      · exact .inl lists
      · cases around
        exact .inr ⟨_, changes, .inr reached⟩
      · exact .inr ⟨ref, changes, .inr (.inr ⟨at_, leads⟩)⟩
      · exact .inr ⟨ref, changes, .inr (.inr elsewhere)⟩

namespace Definition

variable {definition : Definition} {resolver : Resolver} {steps : List Step} {step : Step}

theorem mapped_or_changes (walked : definition.steps resolver = .ok steps) (present : step ∈ steps) :
    step.type ∈ definition.typeNames ∨
      resolver.introspector.typeExists step.type ∧ ∃ ref, (step.changeAt? ref).isSome := by
  rcases (mem_steps_iff walked step).mp present with
    ⟨type, mapped, rfl⟩ | ⟨type, group, tree, declared, own, walkedTree, inTree⟩
  · exact .inl mapped
  · have unguarded : ∀ condition ∈ (none : Option String), condition ≠ "" := by simp
    have yields : Walk.Yields (· ≠ "") resolver ⟨type, group⟩ (some type) none own :=
      Walk.yields_level tree tree.joins_ne_empty unguarded walkedTree
    rcases yields.lists_or_changes inTree with ⟨tag, rfl⟩ | ⟨ref, changes, around | own | ⟨at_, leads⟩⟩
    · exact .inl (mem_typeNames_of_declares (declares_of_catchAll_mem_steps walked present))
    · contradiction
    · have mapped : type ∈ definition.typeNames := by
        by_contra unmapped
        rw [trees_eq_getD, groupsOf_eq_empty unmapped] at declared
        contradiction
      rw [Step.owner_of_changeAt? changes, ← Option.some.inj own]
      exact .inl mapped
    · rw [Step.owner_of_changeAt? changes]
      exact .inr ⟨Resolver.known_of_fieldType? leads, ref, changes⟩

end Definition

namespace Registry

/-- A registry whose tables stand where they belong. -/
structure WellFormed (registry : Registry) (introspector : Introspector) : Prop where
  mapped : ∀ type ∈ registry.mappedTypes, ∃ table, registry.table? type = some table
  titled : ∀ type table, registry.table? type = some table → table.type = type
  named : ∀ type table, registry.table? type = some table →
    ∀ field entry, table.get? field = some entry → entry.name = field
  /-- Only a known type has a table without a mapping of its own, and the table is not empty. -/
  reached : ∀ type table, registry.table? type = some table → ¬ registry.isMapped type →
    introspector.typeExists type ∧ table.entries ≠ []

variable {definition : Definition} {resolver : Resolver} {registry : Registry}

theorem ofDefinition_eq_ok_iff : ofDefinition definition resolver = .ok registry ↔
    ∃ tables, definition.tables resolver = .ok tables ∧
      registry = { tables := tables, mappedTypes := definition.typeNames } := by
  simp only [ofDefinition, Except.bind_eq_ok_iff, Except.pure_eq_ok_iff, eq_comm (a := registry)]

/-- The registry of a definition has the types of the definition for its mapped ones, and its tables
stand where they belong. -/
theorem wellFormed_ofDefinition (built : ofDefinition definition resolver = .ok registry) :
    registry.mappedTypes = definition.typeNames ∧ registry.WellFormed resolver.introspector := by
  obtain ⟨tables, resolved, rfl⟩ := ofDefinition_eq_ok_iff.mp built
  obtain ⟨steps, walked, rfl⟩ := Definition.tables_eq_ok_iff.mp resolved
  refine ⟨rfl, ?_⟩
  constructor
  case mapped =>
    intro type mapped
    have begun : .table type ∈ steps :=
      (Definition.mem_steps_iff walked _).mpr (.inl ⟨type, mapped, rfl⟩)
    have present : type ∈ (Tables.ofSteps steps).keys :=
      (Tables.mem_keys_ofSteps_iff steps type).mpr ⟨_, begun, rfl⟩
    exact Option.ne_none_iff_exists'.mp fun missing =>
      (Dict.get?_eq_none_iff _).mp missing present
  case titled => exact Tables.titled_ofSteps steps
  case named =>
    intro type table found field entry inTable
    refine Tables.named_ofSteps steps ⟨type, field⟩ entry ?_
    rw [Tables.entryAt?, show (Tables.ofSteps steps).get? type = some table from found]
    exact inTable
  case reached =>
    intro type table found unmapped
    have present : type ∈ (Tables.ofSteps steps).keys := by
      by_contra absent
      rw [table?, (Dict.get?_eq_none_iff _).mpr absent] at found
      contradiction
    obtain ⟨step, inSteps, rfl⟩ := (Tables.mem_keys_ofSteps_iff steps type).mp present
    rcases Definition.mapped_or_changes walked inSteps with mapped | ⟨known, ref, changes⟩
    · exact absurd (List.contains_iff_mem.mpr mapped) unmapped
    · refine ⟨known, ?_⟩
      have entered := (Tables.isSome_entryAt?_ofSteps_iff steps ref).mpr ⟨step, inSteps, changes⟩
      rw [Tables.entryAt?, ← Step.owner_of_changeAt? changes,
        show (Tables.ofSteps steps).get? step.type = some table from found] at entered
      obtain ⟨entry, inTable⟩ := Option.isSome_iff_exists.mp entered
      exact List.ne_nil_of_mem (List.mem_map.mpr
        ⟨_, table.attributes.mem_entries_iff.mpr inTable, rfl⟩)

/-- The registry of books has a table of publishers, which are known and not mapped. -/
theorem wellFormed_ofDefinition_guardedBooks : ∃ registry,
    ofDefinition guardedBooks bookResolver = .ok registry ∧ registry.mappedTypes = ["Book"] ∧
      registry.tables.keys = ["Book", "Publisher"] ∧
      registry.WellFormed bookResolver.introspector := by
  have walked : (guardedBooks.tables bookResolver).toOption.map Dict.keys =
      some ["Book", "Publisher"] := by decide +kernel
  obtain ⟨tables, given, keys⟩ := Option.map_eq_some_iff.mp walked
  have resolved := Except.toOption_eq_some_iff.mp given
  have built := ofDefinition_eq_ok_iff.mpr ⟨tables, resolved, rfl⟩
  obtain ⟨mapped, wellFormed⟩ := wellFormed_ofDefinition built
  exact ⟨_, built, mapped, keys, wellFormed⟩

end Registry

end Visibility
