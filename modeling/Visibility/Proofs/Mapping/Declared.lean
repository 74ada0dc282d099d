import Visibility.Proofs.Mapping.Walking
import Visibility.Proofs.Ordered.Dict

set_option autoImplicit false
set_option relaxedAutoImplicit false

/-!
What a definition declares, and what merging does to it.

A merged definition has the types of the earlier definition and then the new ones of the later, each
with its groups in the same way, and in every group the trees of the earlier definition before those of
the later.
-/

namespace Visibility.Definition

variable {definition later : Definition} {type group : String} {scope : Scope}

def groupsOf (definition : Definition) (type : String) : Groups :=
  (definition.types.get? type).getD .empty

/-- The types and groups of a definition, in the order in which their trees are walked. -/
def scopes (definition : Definition) : List Scope :=
  definition.typeNames.flatMap fun type => (definition.groupsOf type).keys.map (Scope.mk type)

theorem groupsOf_eq_empty (unmapped : type ∉ definition.typeNames) :
    definition.groupsOf type = .empty := by
  rw [groupsOf, definition.types.get?_eq_none_iff.mpr unmapped, Option.getD_none]

theorem mem_typeNames_of_declares (declares : group ∈ (definition.groupsOf type).keys) :
    type ∈ definition.typeNames := by
  by_contra unmapped
  rw [groupsOf_eq_empty unmapped] at declares
  contradiction

theorem trees_eq_getD :
    definition.trees type group = ((definition.groupsOf type).get? group).getD [] := by
  rw [trees, groupsOf]
  cases definition.types.get? type with
  | none => rfl
  | some groups => rfl

theorem mem_scopes_iff :
    scope ∈ definition.scopes ↔ scope.group ∈ (definition.groupsOf scope.root).keys := by
  rw [scopes, List.mem_flatMap]
  constructor
  · rintro ⟨type, _, inType⟩
    obtain ⟨group, declared, rfl⟩ := List.mem_map.mp inType
    exact declared
  · intro declared
    exact ⟨scope.root, mem_typeNames_of_declares declared,
      List.mem_map.mpr ⟨scope.group, declared, rfl⟩⟩

theorem trees_eq_nil (undeclared : scope ∉ definition.scopes) :
    definition.trees scope.root scope.group = [] := by
  rw [mem_scopes_iff] at undeclared
  rw [trees_eq_getD, (Dict.get?_eq_none_iff _).mpr undeclared, Option.getD_none]

theorem flatMap_parts {β : Type} (f : Walk.Part → List β) (silent : ∀ type, f (.table type) = []) :
    definition.parts.flatMap f =
      definition.scopes.flatMap fun scope =>
        (definition.trees scope.root scope.group).flatMap fun tree => f (.tree scope tree) := by
  let ofGroup (type group : String) (trees? : Option (List Tree)) : List β :=
    (trees?.getD []).flatMap fun tree => f (.tree ⟨type, group⟩ tree)
  let ofType (type : String) (groups? : Option Groups) : List β :=
    (groups?.getD .empty).entries.flatMap fun entry => ofGroup type entry.1 (some entry.2)
  have walked : definition.parts.flatMap f =
      definition.types.entries.flatMap fun entry => ofType entry.1 (some entry.2) := by
    rw [parts, List.flatMap_assoc]
    refine List.flatMap_congr fun entry _ => ?_
    simp only [List.flatMap_cons, silent, List.nil_append, List.flatMap_assoc, List.flatMap_map,
      ofType, ofGroup, Option.getD_some]
  rw [walked, Dict.flatMap_entries, scopes, List.flatMap_assoc]
  refine List.flatMap_congr fun type _ => ?_
  have inType : ofType type (definition.types.get? type) =
      (definition.groupsOf type).entries.flatMap fun entry => ofGroup type entry.1 (some entry.2) := rfl
  rw [inType, Dict.flatMap_entries _ (ofGroup type), List.flatMap_map]
  simp only [ofGroup, trees_eq_getD]

theorem keys_mergeGroups (groups added : Groups) :
    (mergeGroups groups added).keys = groups.keys ++ added.keys.filter (· ∉ groups.keys) :=
  Dict.keys_foldl_alter (fun trees? trees => trees?.getD [] ++ trees) added groups

theorem get?_mergeGroups (groups added : Groups) (group : String) :
    ((mergeGroups groups added).get? group).getD [] =
      (groups.get? group).getD [] ++ (added.get? group).getD [] := by
  have merged := Dict.get?_foldl_alter (fun trees? trees => trees?.getD [] ++ trees) added groups group
  rw [show (mergeGroups groups added).get? group = _ from merged]
  cases added.get? group with
  | none => simp
  | some trees => simp

theorem typeNames_merge :
    (definition.merge later).typeNames =
      definition.typeNames ++ later.typeNames.filter (· ∉ definition.typeNames) :=
  Dict.keys_foldl_alter (fun groups? groups => mergeGroups (groups?.getD .empty) groups) later.types
    definition.types

theorem groupsOf_merge (type : String) :
    (definition.merge later).groupsOf type =
      mergeGroups (definition.groupsOf type) (later.groupsOf type) := by
  have merged := Dict.get?_foldl_alter
    (fun groups? groups => mergeGroups (groups?.getD .empty) groups) later.types definition.types type
  rw [groupsOf, show (definition.merge later).types.get? type = _ from merged, groupsOf, groupsOf]
  cases later.types.get? type with
  | none => rfl
  | some groups => rfl

theorem trees_merge (type group : String) :
    (definition.merge later).trees type group =
      definition.trees type group ++ later.trees type group := by
  simp only [trees_eq_getD, groupsOf_merge, get?_mergeGroups]

theorem mem_typeNames_merge :
    type ∈ (definition.merge later).typeNames ↔
      type ∈ definition.typeNames ∨ type ∈ later.typeNames := by
  rw [typeNames_merge, List.mem_append, List.mem_filter]
  by_cases known : type ∈ definition.typeNames <;> simp [known]

theorem flatMap_scopes_merge {β : Type} {f : Scope → List β}
    (absent : ∀ scope, scope ∉ definition.scopes → f scope = []) :
    (definition.merge later).scopes.flatMap f = definition.scopes.flatMap f := by
  have newType : (later.typeNames.filter (· ∉ definition.typeNames)).flatMap (fun type =>
      ((definition.merge later).groupsOf type).keys.flatMap fun group => f ⟨type, group⟩) = [] := by
    rw [List.flatMap_eq_nil_iff]
    intro type added
    rw [List.flatMap_eq_nil_iff]
    intro group _
    refine absent ⟨type, group⟩ fun declared => ?_
    rw [mem_scopes_iff, groupsOf_eq_empty (by simpa using (List.mem_filter.mp added).2)] at declared
    contradiction
  have newGroup (type : String) :
      (((later.groupsOf type).keys.filter (· ∉ (definition.groupsOf type).keys)).flatMap
        fun group => f ⟨type, group⟩) = [] := by
    rw [List.flatMap_eq_nil_iff]
    intro group added
    refine absent ⟨type, group⟩ fun declared => ?_
    rw [mem_scopes_iff] at declared
    exact absurd declared (by simpa using (List.mem_filter.mp added).2)
  rw [scopes, List.flatMap_assoc, scopes, List.flatMap_assoc]
  simp only [List.flatMap_map]
  rw [typeNames_merge, List.flatMap_append, newType, List.append_nil]
  refine List.flatMap_congr fun type _ => ?_
  rw [groupsOf_merge, keys_mergeGroups, List.flatMap_append, newGroup, List.append_nil]

end Visibility.Definition
