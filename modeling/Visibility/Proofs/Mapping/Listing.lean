import Visibility.Proofs.Mapping.Yield

set_option autoImplicit false
set_option relaxedAutoImplicit false

/-!
Every tag that a walk gives to a field is listed for the type under walk, and no others are.

This holds for all trees, regular or not.
-/

namespace Visibility

namespace Walk

/-- Steps that list the tags they give, and give no tags but those of the type and group under
walk. -/
structure Paired (scope : Scope) (steps : List Step) : Prop where
  listed : ∀ tag, .catchAll tag ∈ steps ↔ ∃ ref, .tag ref tag ∈ steps
  ofScope : ∀ ref tag, .tag ref tag ∈ steps → ∃ condition, tag = scope.tag condition

section Paired

variable {scope : Scope} {steps more : List Step}

theorem Paired.nil : Paired scope [] :=
  ⟨fun tag => by simp, fun ref tag present => by simp at present⟩

theorem Paired.append (first : Paired scope steps) (second : Paired scope more) :
    Paired scope (steps ++ more) := by
  constructor
  · intro tag
    simp only [List.mem_append, first.listed, second.listed, exists_or]
  · intro ref tag present
    rcases List.mem_append.mp present with inFirst | inSecond
    · exact first.ofScope ref tag inFirst
    · exact second.ofScope ref tag inSecond

theorem Paired.tagging (ref : FieldRef) (condition : Option String) :
    Paired scope [.tag ref (scope.tag condition), .catchAll (scope.tag condition)] := by
  constructor
  · intro tag
    simp
  · intro other tag present
    simp only [List.mem_cons, Step.tag.injEq, List.not_mem_nil, reduceCtorEq, or_false] at present
    exact ⟨condition, present.2⟩

theorem Paired.cons {step : Step} (rest : Paired scope steps)
    (untagged : ∀ ref tag, step ≠ .tag ref tag) (unlisted : ∀ tag, step ≠ .catchAll tag) :
    Paired scope (step :: steps) := by
  constructor
  · intro tag
    simp [(unlisted tag).symm, (untagged _ tag).symm, rest.listed]
  · intro ref tag present
    rcases List.mem_cons.mp present with here | later
    · exact absurd here.symm (untagged ref tag)
    · exact rest.ofScope ref tag later

theorem Paired.limit {step : Step} (rest : Paired scope steps) (limits : step.IsLimit) :
    Paired scope (step :: steps) := by
  cases step with
  | maxDepth | serializedName | ignore => exact rest.cons nofun nofun
  | table | entry | tag | catchAll => cases limits

end Paired

theorem Yields.paired {allowed : String → Prop} {resolver : Resolver} {scope : Scope}
    {owner : Option String} {parent : Option FieldRef} {steps : List Step}
    (yields : Yields allowed resolver scope owner parent steps) : Paired scope steps := by
  induction yields with
  | nil => exact .nil
  | append _ _ first second => exact first.append second
  | security => exact .tagging _ _
  | limit limits => exact Paired.nil.limit limits
  | @field _ _ ref condition deferred _ _ _ _ _ below =>
    refine Paired.append ?_ below
    unfold fieldSteps
    cases deferred with
    | true => exact Paired.nil.cons nofun nofun
    | false => exact (Paired.tagging ref condition).cons nofun nofun

end Walk

theorem Definition.catchAll_mem_steps_iff {definition : Definition} {resolver : Resolver}
    {steps : List Step} (walked : definition.steps resolver = .ok steps) (tag : Tag) :
    .catchAll tag ∈ steps ↔ ∃ ref, .tag ref tag ∈ steps := by
  constructor
  · intro present
    obtain ⟨_, _, own, _, yields, listed, within⟩ := exists_yields_of_mem_steps walked present nofun
    obtain ⟨ref, given⟩ := (yields.paired.listed tag).mp listed
    exact ⟨ref, within given⟩
  · rintro ⟨ref, present⟩
    obtain ⟨_, _, own, _, yields, given, within⟩ := exists_yields_of_mem_steps walked present nofun
    exact within ((yields.paired.listed tag).mpr ⟨ref, given⟩)

end Visibility
