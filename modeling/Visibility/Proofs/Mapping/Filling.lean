import Visibility.Mapping.Walk

set_option autoImplicit false
set_option relaxedAutoImplicit false

/-!
What the tables hold after a list of steps.

An entry is the outcome of the changes that the steps make to it, in order; the tags of a field and the
tags of a type are those that some step gave.
-/

namespace Visibility

def Step.changeAt? (ref : FieldRef) : Step → Option EntryChange
  | .table _ | .catchAll _ => none
  | .entry at_ => if at_ = ref then some .touch else none
  | .tag at_ given => if at_ = ref then some (.tag given.text) else none
  | .maxDepth at_ depth => if at_ = ref then some (.maxDepth depth) else none
  | .serializedName at_ name => if at_ = ref then some (.serializedName name) else none
  | .ignore at_ flag => if at_ = ref then some (.ignore flag) else none

theorem Step.changeAt?_eq_tag_iff {step : Step} {ref : FieldRef} {text : String} :
    step.changeAt? ref = some (.tag text) ↔ ∃ tag, step = .tag ref tag ∧ tag.text = text := by
  cases step with
  | tag at_ tag =>
    constructor
    · intro changed
      simp only [Step.changeAt?] at changed
      split at changed
      · next same =>
        cases changed
        exact ⟨tag, by rw [same], rfl⟩
      · contradiction
    · rintro ⟨_, same, rfl⟩
      cases same
      simp [Step.changeAt?]
  | _ => simp [Step.changeAt?]

theorem Step.eq_of_isSome_changeAt? {step : Step} {ref other : FieldRef}
    (changes : (step.changeAt? ref).isSome) (also : (step.changeAt? other).isSome) : ref = other := by
  cases step with
  | table | catchAll => contradiction
  | _ =>
    simp only [changeAt?, Option.isSome_ite] at changes also
    exact changes.symm.trans also

def Step.type : Step → String
  | .table type => type
  | .catchAll listed => listed.type
  | .entry at_ | .tag at_ _ | .maxDepth at_ _ | .serializedName at_ _ | .ignore at_ _ => at_.owner

theorem Step.owner_of_changeAt? {step : Step} {ref : FieldRef}
    (changes : (step.changeAt? ref).isSome) : step.type = ref.owner := by
  cases step with
  | table | catchAll => contradiction
  | _ =>
    simp only [changeAt?, Option.isSome_ite] at changes
    exact congrArg FieldRef.owner changes

/-- The entry of a field after some changes, if there was an entry or a change. -/
def Entry.changed (field : String) (previous? : Option Entry) (changes : List EntryChange) :
    Option Entry :=
  changes.foldl (fun previous? change => some ((previous?.getD { name := field }).apply change)) previous?

theorem Entry.changed_cons (field : String) (previous? : Option Entry) (change : EntryChange)
    (changes : List EntryChange) :
    Entry.changed field previous? (change :: changes) =
      Entry.changed field (some ((previous?.getD { name := field }).apply change)) changes := rfl

theorem Entry.changed_cons_eq_some (field : String) (previous? : Option Entry) (change : EntryChange)
    (changes : List EntryChange) :
    Entry.changed field previous? (change :: changes) =
      some ((change :: changes).foldl Entry.apply (previous?.getD { name := field })) := by
  induction changes generalizing previous? change with
  | nil => rfl
  | cons next changes ih =>
    rw [Entry.changed_cons, ih, Option.getD_some]
    rfl

theorem Entry.read_foldl_apply {α : Type} {read : Entry → α} {given? : EntryChange → Option α}
    (read_apply : ∀ entry change, read (entry.apply change) = (given? change).getD (read entry))
    (entry : Entry) (changes : List EntryChange) :
    read (changes.foldl Entry.apply entry) = (changes.filterMap given?).getLast?.getD (read entry) := by
  induction changes generalizing entry with
  | nil => rfl
  | cons change changes ih =>
    rw [List.foldl_cons, ih, read_apply]
    cases given : given? change with
    | none => rw [List.filterMap_cons_none given, Option.getD_none]
    | some value =>
      rw [List.filterMap_cons_some given, List.getLast?_cons, Option.getD_some]
      cases (changes.filterMap given?).getLast? <;> rfl

theorem Entry.isSome_changed_iff (field : String) (previous? : Option Entry)
    (changes : List EntryChange) :
    (Entry.changed field previous? changes).isSome ↔ previous?.isSome ∨ changes ≠ [] := by
  induction changes generalizing previous? with
  | nil => simp [Entry.changed]
  | cons change changes ih =>
    rw [Entry.changed_cons, ih]
    simp

theorem Entry.name_apply (entry : Entry) (change : EntryChange) :
    (entry.apply change).name = entry.name := by
  cases change <;> rfl

theorem Entry.name_changed {field : String} {previous? : Option Entry} {changes : List EntryChange}
    {entry : Entry} (named : ∀ previous ∈ previous?, previous.name = field)
    (changed : Entry.changed field previous? changes = some entry) : entry.name = field := by
  induction changes generalizing previous? with
  | nil => exact named entry changed
  | cons change changes ih =>
    rw [Entry.changed_cons] at changed
    refine ih ?_ changed
    rintro _ ⟨⟩
    rw [Entry.name_apply]
    cases previous? with
    | none => rfl
    | some previous => exact named previous rfl

theorem Entry.mem_groups_apply (entry : Entry) (change : EntryChange) (text : String) :
    text ∈ (entry.apply change).groups ↔ text ∈ entry.groups ∨ change = .tag text := by
  cases change with
  | tag given =>
    simp only [Entry.apply, OrderedSet.mem_insert, EntryChange.tag.injEq]
    exact or_congr_right eq_comm
  | _ => simp [Entry.apply]

theorem Entry.mem_groups_changed (field text : String) (previous? : Option Entry)
    (changes : List EntryChange) :
    (∃ entry, Entry.changed field previous? changes = some entry ∧ text ∈ entry.groups) ↔
      (∃ entry, previous? = some entry ∧ text ∈ entry.groups) ∨ .tag text ∈ changes := by
  induction changes generalizing previous? with
  | nil => simp [Entry.changed]
  | cons change changes ih =>
    have first : text ∈ (previous?.getD { name := field }).groups ↔
        ∃ entry, previous? = some entry ∧ text ∈ entry.groups := by
      cases previous? with
      | none => simp
      | some entry => simp
    rw [Entry.changed_cons, ih]
    simp only [Option.some.injEq, exists_eq_left', Entry.mem_groups_apply, first, List.mem_cons,
      eq_comm (b := change), or_assoc]

namespace Table

theorem get?_change (table : Table) (field other : String) (change : EntryChange) :
    (table.change field change).get? other =
      if other = field then some (((table.get? field).getD { name := field }).apply change)
      else table.get? other :=
  Dict.get?_alter table.attributes field other _

end Table

namespace Tables

def entryAt? (tables : Tables) (ref : FieldRef) : Option Entry :=
  (tables.get? ref.owner).bind (·.get? ref.field)

def Tagged (tables : Tables) (ref : FieldRef) (text : String) : Prop :=
  ∃ entry, tables.entryAt? ref = some entry ∧ text ∈ entry.groups

def Lists (tables : Tables) (type text : String) : Prop :=
  ∃ table, tables.get? type = some table ∧ text ∈ table.allGroups

theorem entryAt?_change (tables : Tables) (at_ ref : FieldRef) (change : EntryChange) :
    (tables.change at_ change).entryAt? ref =
      if at_ = ref then some (((tables.entryAt? ref).getD { name := ref.field }).apply change)
      else tables.entryAt? ref := by
  obtain ⟨owner, field⟩ := at_
  obtain ⟨other, name⟩ := ref
  simp only [entryAt?, Tables.change, Dict.get?_alter]
  by_cases sameOwner : other = owner
  · subst sameOwner
    simp only [if_true, Option.bind_some, Table.get?_change]
    by_cases sameField : name = field
    · subst sameField
      rw [if_pos rfl, if_pos rfl]
      cases tables.get? other <;> rfl
    · have differ : ¬ (FieldRef.mk other field = ⟨other, name⟩) := fun h =>
        sameField (FieldRef.mk.inj h).2.symm
      rw [if_neg sameField, if_neg differ]
      cases tables.get? other <;> rfl
  · have differ : ¬ (FieldRef.mk owner field = ⟨other, name⟩) := fun h =>
      sameOwner (FieldRef.mk.inj h).1.symm
    rw [if_neg sameOwner, if_neg differ]

private theorem entryAt?_alter (tables : Tables) (type : String) (f : Option Table → Table)
    (kept : ∀ field, (f (tables.get? type)).get? field =
      (tables.get? type).bind (·.get? field)) (ref : FieldRef) :
    entryAt? (tables.alter type f) ref = tables.entryAt? ref := by
  simp only [entryAt?, Dict.get?_alter]
  by_cases same : ref.owner = type
  · rw [if_pos same, Option.bind_some, kept, same]
  · rw [if_neg same]

theorem entryAt?_apply (tables : Tables) (step : Step) (ref : FieldRef) :
    (tables.apply step).entryAt? ref =
      Entry.changed ref.field (tables.entryAt? ref) (step.changeAt? ref).toList := by
  have changing (at_ : FieldRef) (change : EntryChange) :
      (tables.change at_ change).entryAt? ref =
        Entry.changed ref.field (tables.entryAt? ref)
          (if at_ = ref then some change else none).toList := by
    rw [entryAt?_change]
    split <;> rfl
  cases step with
  | table type =>
    refine entryAt?_alter tables type _ (fun field => ?_) ref
    cases tables.get? type <;> rfl
  | catchAll tag =>
    refine entryAt?_alter tables tag.type _ (fun field => ?_) ref
    cases tables.get? tag.type <;> rfl
  | entry at_ => exact changing at_ .touch
  | tag at_ tag => exact changing at_ (.tag tag.text)
  | maxDepth at_ depth => exact changing at_ (.maxDepth depth)
  | serializedName at_ name => exact changing at_ (.serializedName name)
  | ignore at_ flag => exact changing at_ (.ignore flag)

theorem entryAt?_foldl (tables : Tables) (steps : List Step) (ref : FieldRef) :
    entryAt? (steps.foldl apply tables) ref =
      Entry.changed ref.field (tables.entryAt? ref) (steps.filterMap (Step.changeAt? ref)) := by
  induction steps generalizing tables with
  | nil => rfl
  | cons step steps ih =>
    rw [List.foldl_cons, ih, entryAt?_apply]
    cases changed : step.changeAt? ref with
    | none => rw [List.filterMap_cons_none changed]; rfl
    | some change => rw [List.filterMap_cons_some changed]; rfl

/-- An entry is the outcome of the changes that the steps make to it. -/
theorem entryAt?_ofSteps (steps : List Step) (ref : FieldRef) :
    (ofSteps steps).entryAt? ref =
      Entry.changed ref.field none (steps.filterMap (Step.changeAt? ref)) :=
  entryAt?_foldl .empty steps ref

theorem isSome_entryAt?_ofSteps_iff (steps : List Step) (ref : FieldRef) :
    ((ofSteps steps).entryAt? ref).isSome ↔ ∃ step ∈ steps, (step.changeAt? ref).isSome := by
  rw [entryAt?_ofSteps, Entry.isSome_changed_iff, Ne, List.filterMap_eq_nil_iff]
  simp [Option.isSome_iff_ne_none]

theorem tagged_ofSteps_iff (steps : List Step) (ref : FieldRef) (text : String) :
    (ofSteps steps).Tagged ref text ↔ ∃ tag, .tag ref tag ∈ steps ∧ tag.text = text := by
  simp only [Tagged, entryAt?_ofSteps, Entry.mem_groups_changed, List.mem_filterMap,
    Step.changeAt?_eq_tag_iff]
  constructor
  · rintro (⟨_, impossible, _⟩ | ⟨step, given, tag, rfl, spelled⟩)
    · contradiction
    · exact ⟨tag, given, spelled⟩
  · rintro ⟨tag, given, spelled⟩
    exact .inr ⟨_, given, tag, rfl, spelled⟩

private theorem lists_alter (tables : Tables) (key : String) (f : Option Table → Table)
    (type text : String) :
    Lists (tables.alter key f) type text ↔
      if type = key then text ∈ (f (tables.get? key)).allGroups else tables.Lists type text := by
  simp only [Lists, Dict.get?_alter]
  split <;> simp

private theorem mem_allGroups_getD (tables : Tables) (type text : String) :
    text ∈ ((tables.get? type).getD (.empty type)).allGroups ↔ tables.Lists type text := by
  simp only [Lists]
  cases tables.get? type with
  | none => simp [Table.empty]
  | some table => simp

theorem lists_apply (tables : Tables) (step : Step) (type text : String) :
    (tables.apply step).Lists type text ↔
      tables.Lists type text ∨ ∃ tag, step = .catchAll tag ∧ tag.type = type ∧ tag.text = text := by
  have changing (at_ : FieldRef) (change : EntryChange) :
      (tables.change at_ change).Lists type text ↔ tables.Lists type text := by
    rw [Tables.change, lists_alter]
    split
    · next same => rw [same, ← mem_allGroups_getD]; rfl
    · rfl
  cases step with
  | table begun =>
    rw [Tables.apply, lists_alter, mem_allGroups_getD]
    split
    · next same => simp [same]
    · simp
  | catchAll tag =>
    rw [Tables.apply, lists_alter, Table.addCatchAll, OrderedSet.mem_insert, mem_allGroups_getD]
    split
    · next same => simp [same, eq_comm]
    · next differ => simp [Ne.symm differ]
  | _ => simp [Tables.apply, changing]

theorem lists_ofSteps_iff (steps : List Step) (type text : String) :
    (ofSteps steps).Lists type text ↔
      ∃ tag, .catchAll tag ∈ steps ∧ tag.type = type ∧ tag.text = text := by
  have filled (tables : Tables) : Lists (steps.foldl apply tables) type text ↔
      tables.Lists type text ∨ ∃ tag, .catchAll tag ∈ steps ∧ tag.type = type ∧ tag.text = text := by
    induction steps generalizing tables with
    | nil => simp
    | cons step steps ih =>
      rw [List.foldl_cons, ih, lists_apply, or_assoc]
      simp only [List.mem_cons, or_and_right, exists_or, eq_comm]
  rw [ofSteps, filled]
  simp [Lists]

theorem mem_keys_apply (tables : Tables) (step : Step) (type : String) :
    type ∈ (tables.apply step).keys ↔ type ∈ tables.keys ∨ type = step.type := by
  have altered (key : String) (f : Option Table → Table) :
      type ∈ Dict.keys (tables.alter key f) ↔ type ∈ tables.keys ∨ type = key := by
    rw [Dict.keys_alter]
    split
    · next known =>
      constructor
      · exact .inl
      · rintro (present | rfl)
        · exact present
        · exact known
    · simp
  cases step with
  | _ => exact altered _ _

theorem mem_keys_ofSteps_iff (steps : List Step) (type : String) :
    type ∈ (ofSteps steps).keys ↔ ∃ step ∈ steps, step.type = type := by
  have filled (tables : Tables) : type ∈ Dict.keys (steps.foldl apply tables) ↔
      type ∈ tables.keys ∨ ∃ step ∈ steps, step.type = type := by
    induction steps generalizing tables with
    | nil => simp
    | cons step steps ih =>
      rw [List.foldl_cons, ih, mem_keys_apply, or_assoc, eq_comm]
      simp only [List.mem_cons, exists_eq_or_imp]
  rw [ofSteps, filled]
  simp

/-- Whether every table stands at its own type. -/
def Titled (tables : Tables) : Prop :=
  ∀ type table, tables.get? type = some table → table.type = type

theorem Titled.type_getD {tables : Tables} (titled : tables.Titled) (type : String) :
    ((tables.get? type).getD (.empty type)).type = type := by
  cases present : tables.get? type with
  | none => rfl
  | some table => exact titled type table present

private theorem Titled.alter {tables : Tables} (titled : tables.Titled) {key : String}
    {f : Option Table → Table} (kept : (f (tables.get? key)).type = key) :
    Titled (tables.alter key f) := by
  intro type table found
  rw [Dict.get?_alter] at found
  split at found
  · next same =>
    cases found
    rw [kept, same]
  · exact titled type table found

theorem Titled.apply {tables : Tables} (titled : tables.Titled) (step : Step) :
    (tables.apply step).Titled := by
  cases step with
  | _ => exact titled.alter (titled.type_getD _)

private theorem Titled.foldl {tables : Tables} (titled : tables.Titled) (steps : List Step) :
    Titled (steps.foldl Tables.apply tables) := by
  induction steps generalizing tables with
  | nil => exact titled
  | cons step steps ih => exact ih (titled.apply step)

theorem titled_ofSteps (steps : List Step) : (ofSteps steps).Titled := by
  have start : Titled .empty := by
    intro type table absent
    rw [Dict.get?_empty] at absent
    contradiction
  exact start.foldl steps

/-- Whether every entry stands at its own field. -/
def Named (tables : Tables) : Prop :=
  ∀ ref entry, tables.entryAt? ref = some entry → entry.name = ref.field

theorem named_ofSteps (steps : List Step) : (ofSteps steps).Named := by
  intro ref entry entered
  rw [entryAt?_ofSteps] at entered
  exact Entry.name_changed (by simp) entered

end Tables

end Visibility
