import Visibility.Proofs.Mapping.Declared
import Visibility.Proofs.Mapping.Outline

set_option autoImplicit false
set_option relaxedAutoImplicit false

/-!
Definitions that are merged into themselves.

Every tree is then walked again after the other trees of its group.  Steps that are taken again find
their types, fields and tags there, which keep their places, and the last value that they give to a limit
is the same as before.  The main statement is that the tables are the same, or fail in the same way.
-/

namespace Visibility

namespace Entry

private theorem read_foldl_apply_twice {α : Type} (read : Entry → α)
    (given? : EntryChange → Option α)
    (read_apply : ∀ entry change, read (entry.apply change) = (given? change).getD (read entry))
    (entry : Entry) (changes : List EntryChange) :
    read (changes.foldl apply (changes.foldl apply entry)) = read (changes.foldl apply entry) := by
  simp only [read_foldl_apply read_apply]
  cases (changes.filterMap given?).getLast? <;> rfl

private theorem groups_foldl_apply {entry : Entry} {changes : List EntryChange}
    (known : ∀ text, .tag text ∈ changes → text ∈ entry.groups) :
    (changes.foldl apply entry).groups = entry.groups := by
  induction changes generalizing entry with
  | nil => rfl
  | cons change changes ih =>
    have same : (entry.apply change).groups = entry.groups := by
      cases change with
      | tag text =>
        refine OrderedSet.ext ?_
        exact (OrderedSet.toList_insert _ text).trans (if_pos (known text List.mem_cons_self))
      | _ => rfl
    rw [List.foldl_cons, ih, same]
    intro text later
    rw [same]
    exact known text (List.mem_cons_of_mem _ later)

private theorem mem_groups_foldl_apply {entry : Entry} {changes : List EntryChange} {text : String} :
    text ∈ (changes.foldl apply entry).groups ↔ text ∈ entry.groups ∨ .tag text ∈ changes := by
  induction changes generalizing entry with
  | nil => simp
  | cons change changes ih =>
    rw [List.foldl_cons, ih, mem_groups_apply, or_assoc, List.mem_cons, eq_comm]

theorem foldl_apply_twice (entry : Entry) (changes : List EntryChange) :
    changes.foldl apply (changes.foldl apply entry) = changes.foldl apply entry := by
  have sameName := read_foldl_apply_twice Entry.name (fun _ => none) name_apply entry changes
  have groups : (changes.foldl apply (changes.foldl apply entry)).groups =
      (changes.foldl apply entry).groups :=
    groups_foldl_apply fun text present => mem_groups_foldl_apply.mpr (.inr present)
  have maxDepth := read_foldl_apply_twice Entry.maxDepth
    (fun | .maxDepth depth => some (some depth) | _ => none)
    (fun _ change => by cases change <;> rfl) entry changes
  have serializedName := read_foldl_apply_twice Entry.serializedName
    (fun | .serializedName name => some (some name) | _ => none)
    (fun _ change => by cases change <;> rfl) entry changes
  have ignored := read_foldl_apply_twice Entry.ignored
    (fun | .ignore flag => some flag | _ => none)
    (fun _ change => by cases change <;> rfl) entry changes
  generalize changes.foldl apply (changes.foldl apply entry) = again at *
  generalize changes.foldl apply entry = once at *
  cases again
  cases once
  congr

theorem changed_twice (field : String) (previous? : Option Entry) (changes : List EntryChange) :
    changed field (changed field previous? changes) changes = changed field previous? changes := by
  cases changes with
  | nil => rfl
  | cons change changes => rw [changed_cons_eq_some, changed_cons_eq_some, Option.getD_some,
      foldl_apply_twice]

end Entry

/-- What a table has apart from the values in its entries. -/
structure Table.Frame where
  type : String
  fields : List String
  tags : OrderedSet String

def Table.frame (table : Table) : Table.Frame :=
  ⟨table.type, table.attributes.keys, table.allGroups⟩

namespace Tables

variable {tables other last : Tables} {step : Step}

/-- Whether tables stand for the same types, with the same fields and tags, all in the same order. -/
structure SameFrame (tables other : Tables) : Prop where
  keys : tables.keys = other.keys
  frames : ∀ type, (tables.get? type).map Table.frame = (other.get? type).map Table.frame

theorem SameFrame.refl (tables : Tables) : tables.SameFrame tables :=
  ⟨rfl, fun _ => rfl⟩

theorem SameFrame.trans (same : tables.SameFrame other) (next : other.SameFrame last) :
    tables.SameFrame last :=
  ⟨same.keys.trans next.keys, fun type => (same.frames type).trans (next.frames type)⟩

theorem SameFrame.eq (same : tables.SameFrame other)
    (entries : ∀ ref, tables.entryAt? ref = other.entryAt? ref) : tables = other := by
  refine Dict.ext_get? same.keys fun type => ?_
  have framed := same.frames type
  have fields (field : String) : (tables.get? type).bind (·.get? field) =
      (other.get? type).bind (·.get? field) := entries ⟨type, field⟩
  cases found : tables.get? type with
  | none =>
    rw [found] at framed
    exact (Option.map_eq_none_iff.mp framed.symm).symm
  | some table =>
    rw [found] at framed fields
    obtain ⟨⟨name, attributes, allGroups⟩, foundToo, sameFrame⟩ :=
      Option.map_eq_some_iff.mp framed.symm
    rw [foundToo] at fields ⊢
    obtain ⟨sameName, sameKeys, sameTags⟩ := Table.Frame.mk.inj sameFrame
    have sameAttributes : table.attributes = attributes := Dict.ext_get? sameKeys.symm fields
    cases table
    simp_all

private theorem sameFrame_alter {type : String} {table : Table} {f : Option Table → Table}
    (present : tables.get? type = some table) (kept : (f (some table)).frame = table.frame) :
    SameFrame (tables.alter type f) tables where
  keys := by
    have known : type ∈ tables.keys := by
      by_contra absent
      rw [(Dict.get?_eq_none_iff tables).mpr absent] at present
      contradiction
    rw [Dict.keys_alter, if_pos known]
  frames other := by
    rw [Dict.get?_alter]
    split
    · next same => rw [same, present, Option.map_some, Option.map_some, kept]
    · rfl

/-- Whether the tables have what a step adds to them, apart from values. -/
def Has (tables : Tables) : Step → Prop
  | .table type => type ∈ tables.keys
  | .catchAll listed => tables.Lists listed.type listed.text
  | .entry at_ | .tag at_ _ | .maxDepth at_ _ | .serializedName at_ _ | .ignore at_ _ =>
    (tables.entryAt? at_).isSome

theorem has_apply (tables : Tables) (step : Step) : (tables.apply step).Has step := by
  have changed (at_ : FieldRef) (changes : (step.changeAt? at_).isSome) :
      ((tables.apply step).entryAt? at_).isSome := by
    rw [entryAt?_apply, Entry.isSome_changed_iff]
    obtain ⟨change, made⟩ := Option.isSome_iff_exists.mp changes
    simp [made]
  cases step with
  | table type => exact (mem_keys_apply tables (.table type) type).mpr (.inr rfl)
  | catchAll listed =>
    exact (lists_apply tables (.catchAll listed) _ _).mpr (.inr ⟨listed, rfl, rfl, rfl⟩)
  | entry at_ | tag at_ _ | maxDepth at_ _ | serializedName at_ _ | ignore at_ _ =>
    exact changed at_ (by simp [Step.changeAt?])

theorem Has.apply (has : tables.Has step) (next : Step) : (tables.apply next).Has step := by
  have kept (at_ : FieldRef) (present : (tables.entryAt? at_).isSome) :
      ((tables.apply next).entryAt? at_).isSome := by
    rw [entryAt?_apply, Entry.isSome_changed_iff]
    exact .inl present
  cases step with
  | table type => exact (mem_keys_apply tables next type).mpr (.inl has)
  | catchAll listed => exact (lists_apply tables next _ _).mpr (.inl has)
  | entry at_ | tag at_ _ | maxDepth at_ _ | serializedName at_ _ | ignore at_ _ =>
    exact kept at_ has

theorem Has.foldl (has : tables.Has step) (steps : List Step) :
    Has (steps.foldl Tables.apply tables) step := by
  induction steps generalizing tables with
  | nil => exact has
  | cons next steps ih => exact ih (has.apply next)

theorem has_foldl (tables : Tables) (steps : List Step) :
    ∀ step ∈ steps, Has (steps.foldl apply tables) step := by
  induction steps generalizing tables with
  | nil => nofun
  | cons step steps ih =>
    rw [List.forall_mem_cons]
    exact ⟨(has_apply tables step).foldl steps, ih (tables.apply step)⟩

theorem Has.sameFrame_apply (has : tables.Has step) : (tables.apply step).SameFrame tables := by
  have changing (at_ : FieldRef) (change : EntryChange) (present : (tables.entryAt? at_).isSome) :
      (tables.change at_ change).SameFrame tables := by
    obtain ⟨entry, found⟩ := Option.isSome_iff_exists.mp present
    obtain ⟨table, inType, inTable⟩ := Option.bind_eq_some_iff.mp found
    refine sameFrame_alter inType ?_
    have known : at_.field ∈ table.attributes.keys := by
      by_contra absent
      rw [Table.get?, (Dict.get?_eq_none_iff _).mpr absent] at inTable
      contradiction
    simp only [Option.getD_some, Table.change, Table.frame, Dict.keys_alter, if_pos known]
  cases step with
  | table type =>
    cases found : tables.get? type with
    | none => exact absurd has ((Dict.get?_eq_none_iff tables).mp found)
    | some table => exact sameFrame_alter found rfl
  | catchAll listed =>
    obtain ⟨table, found, present⟩ := has
    refine sameFrame_alter found ?_
    have same : table.allGroups.insert listed.text = table.allGroups :=
      OrderedSet.ext ((OrderedSet.toList_insert _ _).trans (if_pos present))
    simp only [Option.getD_some, Table.addCatchAll, Table.frame, same]
  | entry at_ | tag at_ _ | maxDepth at_ _ | serializedName at_ _ | ignore at_ _ =>
    exact changing at_ _ has

theorem sameFrame_foldl {steps : List Step} (has : ∀ step ∈ steps, tables.Has step) :
    SameFrame (steps.foldl apply tables) tables := by
  induction steps generalizing tables with
  | nil => exact .refl tables
  | cons step steps ih =>
    obtain ⟨here, later⟩ := List.forall_mem_cons.mp has
    have kept : ∀ other ∈ steps, (tables.apply step).Has other := fun other present =>
      (later other present).apply step
    exact (ih kept).trans here.sameFrame_apply

/-- Steps that are taken again, in their order, change nothing. -/
theorem foldl_apply_twice (tables : Tables) (steps : List Step) :
    steps.foldl apply (steps.foldl apply tables) = steps.foldl apply tables := by
  refine (sameFrame_foldl (has_foldl tables steps)).eq fun ref => ?_
  rw [entryAt?_foldl, entryAt?_foldl, Entry.changed_twice]

end Tables

namespace Walk

variable {resolver : Resolver}

def filling (resolver : Resolver) (parts : List Part) : Except MappingError (Tables → Tables) :=
  (collect (Part.steps resolver) parts).map fun steps tables => steps.foldl Tables.apply tables

theorem filling_append (parts more : List Part) :
    filling resolver (parts ++ more) = (do
      let first ← filling resolver parts
      let second ← filling resolver more
      return second ∘ first) := by
  simp only [filling, collect_append]
  cases collect (Part.steps resolver) parts with
  | error error => rfl
  | ok steps =>
    cases collect (Part.steps resolver) more with
    | error error => rfl
    | ok later =>
      show Except.ok (fun tables => (steps ++ later).foldl Tables.apply tables) = Except.ok _
      simp only [List.foldl_append]
      rfl

theorem filling_append_self (resolver : Resolver) (parts : List Part) :
    filling resolver (parts ++ parts) = filling resolver parts := by
  rw [filling_append]
  simp only [filling]
  cases collect (Part.steps resolver) parts with
  | error error => rfl
  | ok steps =>
    refine congrArg Except.ok (funext fun tables => ?_)
    exact Tables.foldl_apply_twice tables steps

theorem filling_flatMap {α : Type} {f g : α → List Part}
    (same : ∀ item, filling resolver (f item) = filling resolver (g item)) (items : List α) :
    filling resolver (items.flatMap f) = filling resolver (items.flatMap g) := by
  induction items with
  | nil => rfl
  | cons item items ih =>
    rw [List.flatMap_cons, List.flatMap_cons, filling_append, filling_append, same, ih]

end Walk

namespace Definition

variable {resolver : Resolver}

theorem tables_eq_filling (definition : Definition) (resolver : Resolver) :
    definition.tables resolver =
      (Walk.filling resolver definition.parts).map fun fill => fill .empty := by
  rw [tables, steps_eq_collect, Walk.filling]
  cases Walk.collect (Walk.Part.steps resolver) definition.parts <;> rfl

theorem mergeGroups_self (groups : Groups) :
    mergeGroups groups groups = groups.map fun trees => trees ++ trees := by
  refine Dict.ext_get? ?_ fun group => ?_
  · rw [keys_mergeGroups, Dict.keys_map]
    simp
  · have merged := Dict.get?_foldl_alter (fun trees? trees => trees?.getD [] ++ trees) groups groups
      group
    rw [Dict.get?_map]
    refine Eq.trans merged ?_
    cases groups.get? group <;> rfl

theorem types_merge_self (definition : Definition) :
    (definition.merge definition).types =
      definition.types.map fun groups => groups.map fun trees => trees ++ trees := by
  refine Dict.ext_get? ?_ fun type => ?_
  · rw [Dict.keys_map]
    have merged : (definition.merge definition).typeNames = _ := typeNames_merge
    refine Eq.trans merged ?_
    simp +contextual [typeNames]
  · have merged := Dict.get?_foldl_alter
      (fun groups? groups => mergeGroups (groups?.getD .empty) groups) definition.types
      definition.types type
    rw [Dict.get?_map]
    refine Eq.trans merged ?_
    cases definition.types.get? type with
    | none => rfl
    | some groups => exact congrArg some (mergeGroups_self groups)

theorem parts_merge_self (definition : Definition) :
    (definition.merge definition).parts = definition.types.entries.flatMap fun entry =>
      [.table entry.1] ++ entry.2.entries.flatMap fun group =>
        group.2.map (.tree ⟨entry.1, group.1⟩) ++ group.2.map (.tree ⟨entry.1, group.1⟩) := by
  rw [parts, types_merge_self]
  simp only [Dict.map, List.flatMap_map, List.map_append, List.singleton_append]

/-- A definition that is merged into itself has the tables that it has alone: types, fields and tags in
the same order, under the same limits.  Where it has none, the walk fails for the same reason. -/
theorem tables_merge_self (definition : Definition) (resolver : Resolver) :
    (definition.merge definition).tables resolver = definition.tables resolver := by
  rw [tables_eq_filling, tables_eq_filling, parts_merge_self, parts]
  refine congrArg _ (Walk.filling_flatMap (fun entry => ?_) definition.types.entries)
  have twice (group : String × List Tree) :=
    Walk.filling_append_self resolver (group.2.map (.tree ⟨entry.1, group.1⟩))
  have groups := Walk.filling_flatMap twice entry.2.entries
  rw [Walk.filling_append, groups, ← Walk.filling_append, List.singleton_append]

end Definition

end Visibility
