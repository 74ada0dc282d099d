import Visibility.Proofs.Mapping.Filling
import Visibility.Proofs.Ordered.Dict

set_option autoImplicit false
set_option relaxedAutoImplicit false

/-!
What steps do to the tables apart from tags.

The outline of tables has their types and entries in order, with everything but the tags.  It depends on
the steps in the same way as the tables do, with every tag of a field taken for the entry of the field,
and every tag of a type for its table.  Conditions of tags show in no outline.
-/

namespace Visibility

def Entry.outline (entry : Entry) : Entry :=
  { entry with groups := .empty }

def Table.outline (table : Table) : Table :=
  { table with attributes := table.attributes.map Entry.outline, allGroups := .empty }

namespace EntryChange

def outline : EntryChange → EntryChange
  | .tag _ => .touch
  | other => other

end EntryChange

def Step.outline : Step → Step
  | .tag at_ _ => .entry at_
  | .catchAll listed => .table listed.type
  | other => other

theorem Entry.outline_apply (entry : Entry) (change : EntryChange) :
    (entry.apply change).outline = entry.outline.apply change.outline := by
  cases change <;> rfl

theorem Table.outline_change (table : Table) (field : String) (change : EntryChange) :
    (table.change field change).outline = table.outline.change field change.outline := by
  have changed : (table.attributes.alter field fun previous? =>
      (previous?.getD { name := field }).apply change).map Entry.outline =
      (table.attributes.map Entry.outline).alter field fun previous? =>
        (previous?.getD { name := field }).apply change.outline := by
    refine Dict.map_alter Entry.outline (fun previous? => ?_) table.attributes field
    rw [Entry.outline_apply]
    cases previous? <;> rfl
  simp only [Table.change, Table.outline, changed]

namespace Tables

/-- The tables without their tags. -/
def outline (tables : Tables) : Tables :=
  tables.map Table.outline

theorem outline_change (tables : Tables) (at_ : FieldRef) (change : EntryChange) :
    (tables.change at_ change).outline = tables.outline.change at_ change.outline := by
  refine Dict.map_alter Table.outline (fun table? => ?_) tables at_.owner
  rw [Table.outline_change]
  cases table? <;> rfl

theorem outline_apply (tables : Tables) (step : Step) :
    (tables.apply step).outline = tables.outline.apply step.outline := by
  cases step with
  | table type =>
    refine Dict.map_alter Table.outline (fun table? => ?_) tables type
    cases table? <;> rfl
  | catchAll tag =>
    refine Dict.map_alter Table.outline (fun table? => ?_) tables tag.type
    cases table? <;> rfl
  | entry at_ => exact outline_change tables at_ .touch
  | tag at_ tag => exact outline_change tables at_ (.tag tag.text)
  | maxDepth at_ depth => exact outline_change tables at_ (.maxDepth depth)
  | serializedName at_ name => exact outline_change tables at_ (.serializedName name)
  | ignore at_ flag => exact outline_change tables at_ (.ignore flag)

theorem outline_ofSteps (steps : List Step) :
    (ofSteps steps).outline = ofSteps (steps.map Step.outline) := by
  have filled (tables : Tables) : outline (steps.foldl apply tables) =
      (steps.map Step.outline).foldl apply tables.outline := by
    induction steps generalizing tables with
    | nil => rfl
    | cons step steps ih => rw [List.foldl_cons, ih, outline_apply, List.map_cons, List.foldl_cons]
  exact filled .empty

end Tables

/-- The tag cut back to its type and group. -/
def Tag.cut (tag : Tag) : Tag :=
  { tag with condition := none }

def Step.cut : Step → Step
  | .tag at_ given => .tag at_ given.cut
  | .catchAll listed => .catchAll listed.cut
  | other => other

namespace Step

theorem outline_cut (step : Step) : step.cut.outline = step.outline := by
  cases step <;> rfl

theorem cut_eq_tag_iff {step : Step} {ref : FieldRef} {cut : Tag} :
    step.cut = .tag ref cut ↔ ∃ tag, step = .tag ref tag ∧ tag.cut = cut := by
  cases step <;> simp [Step.cut, and_assoc]

theorem cut_eq_catchAll_iff {step : Step} {cut : Tag} :
    step.cut = .catchAll cut ↔ ∃ tag, step = .catchAll tag ∧ tag.cut = cut := by
  cases step <;> simp [Step.cut]

end Step

section Cut

variable {steps again : List Step} (same : again.map Step.cut = steps.map Step.cut)

include same

theorem Tables.outline_eq_of_cut : (ofSteps again).outline = (ofSteps steps).outline := by
  have outlines (steps : List Step) :
      steps.map Step.outline = (steps.map Step.cut).map Step.outline := by
    simp only [List.map_map, Function.comp_def, Step.outline_cut]
  rw [outline_ofSteps, outline_ofSteps, outlines again, outlines steps, same]

theorem exists_tag_cut_iff (ref : FieldRef) (cut : Tag) :
    (∃ tag, .tag ref tag ∈ again ∧ tag.cut = cut) ↔ ∃ tag, .tag ref tag ∈ steps ∧ tag.cut = cut := by
  have written (steps : List Step) :
      (∃ tag, .tag ref tag ∈ steps ∧ tag.cut = cut) ↔ .tag ref cut ∈ steps.map Step.cut := by
    simp only [List.mem_map, Step.cut_eq_tag_iff]
    constructor
    · rintro ⟨tag, given, short⟩
      exact ⟨_, given, tag, rfl, short⟩
    · rintro ⟨_, given, tag, rfl, short⟩
      exact ⟨tag, given, short⟩
  rw [written, written, same]

theorem exists_catchAll_cut_iff (cut : Tag) :
    (∃ tag, .catchAll tag ∈ again ∧ tag.cut = cut) ↔
      ∃ tag, .catchAll tag ∈ steps ∧ tag.cut = cut := by
  have written (steps : List Step) :
      (∃ tag, .catchAll tag ∈ steps ∧ tag.cut = cut) ↔ .catchAll cut ∈ steps.map Step.cut := by
    simp only [List.mem_map, Step.cut_eq_catchAll_iff]
    constructor
    · rintro ⟨tag, given, short⟩
      exact ⟨_, given, tag, rfl, short⟩
    · rintro ⟨_, given, tag, rfl, short⟩
      exact ⟨tag, given, short⟩
  rw [written, written, same]

end Cut

end Visibility
