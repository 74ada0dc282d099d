import Visibility.Proofs.Mapping.Declared

set_option autoImplicit false
set_option relaxedAutoImplicit false

/-!
Definitions that come from documents.

A document names no group with a colon, and merging adds no other names.
-/

namespace Visibility.Definition

/-- Definitions that documents declare, and that are merged from such ones. -/
inductive Loaded : Definition → Prop where
  | document {definition : Definition} {origin : String} {value : Yaml}
      (read : ofYaml origin value = .ok definition) : Loaded definition
  | merge {definition later : Definition} (first : Loaded definition) (second : Loaded later) :
      Loaded (definition.merge later)

def Plain (definition : Definition) : Prop :=
  ∀ type, ∀ group ∈ (definition.groupsOf type).keys, ':' ∉ group.toList

variable {definition later : Definition} {origin type : String}

theorem groupsOf_push (definition : Definition) (type group other : String) (tree : Tree) :
    (definition.push type group tree).groupsOf other =
      if other = type then
        (definition.groupsOf type).alter group fun trees? => trees?.getD [] ++ [tree]
      else definition.groupsOf other := by
  simp only [groupsOf, push, append, Dict.get?_alter]
  split
  · rfl
  · rfl

theorem plain_empty : Plain .empty := by
  intro type group declared
  contradiction

theorem Plain.push (plain : definition.Plain) {group : String} (undotted : ':' ∉ group.toList)
    (type : String) (tree : Tree) : (definition.push type group tree).Plain := by
  intro other name declared
  rw [groupsOf_push] at declared
  split at declared
  · rw [Dict.keys_alter] at declared
    split at declared
    · exact plain type name declared
    · rcases List.mem_append.mp declared with before | added
      · exact plain type name before
      · exact List.mem_singleton.mp added ▸ undotted
  · exact plain other name declared

theorem Plain.merge (plain : definition.Plain) (plainLater : later.Plain) :
    (definition.merge later).Plain := by
  intro type group declared
  rw [groupsOf_merge, keys_mergeGroups] at declared
  rcases List.mem_append.mp declared with before | added
  · exact plain type group before
  · exact plainLater type group (List.mem_of_mem_filter added)

theorem plain_addGroups {groups : Yaml.Pairs} {after : Definition} (plain : definition.Plain)
    (added : addGroups origin type definition groups = .ok after) : after.Plain := by
  induction groups generalizing definition with
  | nil =>
    cases added
    exact plain
  | cons pair rest ih =>
    obtain ⟨key, body⟩ := pair
    rw [addGroups] at added
    obtain ⟨group, _, added⟩ := Except.bind_eq_ok_iff.mp added
    split at added
    · obtain ⟨_, failed, _⟩ := Except.bind_eq_ok_iff.mp added
      contradiction
    · next undotted =>
      obtain ⟨tree, _, addedRest⟩ := Except.bind_eq_ok_iff.mp added
      rw [List.contains_iff_mem] at undotted
      exact ih (plain.push undotted type tree) addedRest

theorem plain_addTypes {types : Yaml.Pairs} {after : Definition} (plain : definition.Plain)
    (added : addTypes origin definition types = .ok after) : after.Plain := by
  induction types generalizing definition with
  | nil =>
    cases added
    exact plain
  | cons pair rest ih =>
    obtain ⟨key, body⟩ := pair
    rw [addTypes] at added
    obtain ⟨type, _, added⟩ := Except.bind_eq_ok_iff.mp added
    split at added
    · obtain ⟨between, addedGroups, addedRest⟩ := Except.bind_eq_ok_iff.mp added
      exact ih (plain_addGroups plain addedGroups) addedRest
    · contradiction

theorem Loaded.plain (loaded : definition.Loaded) : definition.Plain := by
  induction loaded with
  | @document _ origin value read =>
    cases value with
    | null =>
      cases read
      exact plain_empty
    | mapping types => exact plain_addTypes plain_empty read
    | _ => cases read
  | merge _ _ first second => exact first.merge second

end Visibility.Definition
