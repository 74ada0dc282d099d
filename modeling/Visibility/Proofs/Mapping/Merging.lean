import Visibility.Proofs.Mapping.Declared

set_option autoImplicit false
set_option relaxedAutoImplicit false

/-!
The tables of a merged definition, as sets.

A part of a walk gives the same steps wherever it stands, so that a merged definition is walked where
both are, and its steps are those of the two; their order is another one, which sets do not show.
-/

namespace Visibility

/-- Tables that hold what two others hold, and nothing else. -/
structure Tables.IsUnion (tables first second : Tables) : Prop where
  types : ∀ type, type ∈ tables.keys ↔ type ∈ first.keys ∨ type ∈ second.keys
  entries : ∀ ref, (tables.entryAt? ref).isSome ↔
    (first.entryAt? ref).isSome ∨ (second.entryAt? ref).isSome
  tagged : ∀ ref text, tables.Tagged ref text ↔ first.Tagged ref text ∨ second.Tagged ref text
  listed : ∀ type text, tables.Lists type text ↔ first.Lists type text ∨ second.Lists type text

namespace Tables

theorem IsUnion.swap {tables first second : Tables} (union : tables.IsUnion first second) :
    tables.IsUnion second first where
  types type := (union.types type).trans or_comm
  entries ref := (union.entries ref).trans or_comm
  tagged ref text := (union.tagged ref text).trans or_comm
  listed type text := (union.listed type text).trans or_comm

theorem isUnion_ofSteps {steps first second : List Step}
    (both : ∀ step, step ∈ steps ↔ step ∈ first ∨ step ∈ second) :
    (ofSteps steps).IsUnion (ofSteps first) (ofSteps second) := by
  constructor
  · intro type
    simp only [mem_keys_ofSteps_iff, both, or_and_right, exists_or]
  · intro ref
    simp only [isSome_entryAt?_ofSteps_iff, both, or_and_right, exists_or]
  · intro ref text
    simp only [tagged_ofSteps_iff, both, or_and_right, exists_or]
  · intro type text
    simp only [lists_ofSteps_iff, both, or_and_right, exists_or]

end Tables

namespace Definition

variable {definition later : Definition} {resolver : Resolver} {merged first second : List Step}

theorem mem_parts_merge {part : Walk.Part} :
    part ∈ (definition.merge later).parts ↔ part ∈ definition.parts ∨ part ∈ later.parts := by
  cases part with
  | table type => simp only [table_mem_parts_iff, mem_typeNames_merge]
  | tree scope tree => simp only [tree_mem_parts_iff, trees_merge, List.mem_append]

theorem exists_steps_merge_iff :
    (∃ merged, (definition.merge later).steps resolver = .ok merged) ↔
      (∃ first, definition.steps resolver = .ok first) ∧
        ∃ second, later.steps resolver = .ok second := by
  simp only [steps_eq_collect, Walk.exists_collect_iff, mem_parts_merge, or_imp, forall_and]

theorem mem_steps_merge (walked : (definition.merge later).steps resolver = .ok merged)
    (walkedFirst : definition.steps resolver = .ok first)
    (walkedSecond : later.steps resolver = .ok second) (step : Step) :
    step ∈ merged ↔ step ∈ first ∨ step ∈ second := by
  rw [steps_eq_collect] at walked walkedFirst walkedSecond
  rw [Walk.mem_collect_iff walked, Walk.mem_collect_iff walkedFirst,
    Walk.mem_collect_iff walkedSecond]
  simp only [mem_parts_merge, or_and_right, exists_or]

theorem exists_tables_iff :
    (∃ tables, definition.tables resolver = .ok tables) ↔
      ∃ steps, definition.steps resolver = .ok steps := by
  simp only [tables_eq_ok_iff]
  constructor
  · rintro ⟨_, steps, walked, _⟩
    exact ⟨steps, walked⟩
  · rintro ⟨steps, walked⟩
    exact ⟨_, steps, walked, rfl⟩

theorem exists_union_merge {earlierTables laterTables : Tables}
    (built : definition.tables resolver = .ok earlierTables)
    (builtLater : later.tables resolver = .ok laterTables) :
    ∃ tables, (definition.merge later).tables resolver = .ok tables ∧
      tables.IsUnion earlierTables laterTables := by
  obtain ⟨first, walkedFirst, rfl⟩ := tables_eq_ok_iff.mp built
  obtain ⟨second, walkedSecond, rfl⟩ := tables_eq_ok_iff.mp builtLater
  obtain ⟨merged, walked⟩ := exists_steps_merge_iff.mpr ⟨⟨first, walkedFirst⟩, second, walkedSecond⟩
  exact ⟨_, tables_eq_ok_iff.mpr ⟨merged, walked, rfl⟩,
    Tables.isUnion_ofSteps (mem_steps_merge walked walkedFirst walkedSecond)⟩

/-- A merged definition has tables where both definitions have, and then, in either order, they are
the union of the tables of the two. -/
theorem tables_merge (definition later : Definition) (resolver : Resolver) :
    ((∃ tables, (definition.merge later).tables resolver = .ok tables) ↔
      (∃ tables, definition.tables resolver = .ok tables) ∧
        ∃ tables, later.tables resolver = .ok tables) ∧
    ∀ earlierTables laterTables, definition.tables resolver = .ok earlierTables →
      later.tables resolver = .ok laterTables →
      ∃ tables swapped, (definition.merge later).tables resolver = .ok tables ∧
        (later.merge definition).tables resolver = .ok swapped ∧
        tables.IsUnion earlierTables laterTables ∧ swapped.IsUnion earlierTables laterTables := by
  constructor
  · simp only [exists_tables_iff, exists_steps_merge_iff]
  · intro earlierTables laterTables built builtLater
    obtain ⟨tables, builtMerged, union⟩ := exists_union_merge built builtLater
    obtain ⟨swapped, builtSwapped, swappedUnion⟩ := exists_union_merge builtLater built
    exact ⟨tables, swapped, builtMerged, builtSwapped, union, swappedUnion.swap⟩

def titledBooks : Definition :=
  Definition.empty.push "Book" "item.normalization.get" [(.string "title", .null)]

theorem tables_merge_titledBooks :
    ∃ guarded titled tables, guardedBooks.tables bookResolver = .ok guarded ∧
      titledBooks.tables bookResolver = .ok titled ∧
      (guardedBooks.merge titledBooks).tables bookResolver = .ok tables ∧
      tables.IsUnion guarded titled := by
  obtain ⟨guarded, builtGuarded⟩ := exists_tables_guardedBooks
  obtain ⟨titled, builtTitled⟩ : ∃ tables, titledBooks.tables bookResolver = .ok tables :=
    Except.exists_of_isOk (by decide +kernel)
  obtain ⟨tables, _, built, _, union, _⟩ :=
    (tables_merge guardedBooks titledBooks bookResolver).2 _ _ builtGuarded builtTitled
  exact ⟨guarded, titled, tables, builtGuarded, builtTitled, built, union⟩

end Definition

end Visibility
