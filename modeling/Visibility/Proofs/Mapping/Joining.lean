import Mathlib.Data.List.Forall2
import Visibility.Mapping.Loading
import Visibility.Proofs.Mapping.Declared
import Visibility.Proofs.Ordered.Join

set_option autoImplicit false
set_option relaxedAutoImplicit false

/-!
Definitions that are merged one after the other.

A definition is a dictionary of dictionaries of lists of trees, and merging joins it on both levels.
Lists are a monoid, so the dictionaries of both levels are: merging is associative, with the empty
definition as its neutral element, and the merge of many definitions holds on each level what they hold,
in the order of first appearance.
-/

namespace Visibility

namespace Definition

theorem mergeGroups_eq_join : mergeGroups = Dict.join (· ++ ·) [] := rfl

instance : Std.Associative mergeGroups :=
  inferInstanceAs (Std.Associative (Dict.join (· ++ ·) []))

instance : Std.LawfulIdentity mergeGroups .empty :=
  inferInstanceAs (Std.LawfulIdentity (Dict.join (· ++ ·) []) .empty)

variable {definitions : List Definition}

theorem types_merge (definition later : Definition) :
    (definition.merge later).types =
      Dict.join mergeGroups .empty definition.types later.types := rfl

def mergeAll (definitions : List Definition) : Definition :=
  definitions.foldl merge empty

theorem types_mergeAll : (mergeAll definitions).types =
    (definitions.map types).foldl (Dict.join mergeGroups .empty) .empty := by
  have from_ (start : Definition) : (definitions.foldl merge start).types =
      (definitions.map types).foldl (Dict.join mergeGroups .empty) start.types := by
    induction definitions generalizing start with
    | nil => rfl
    | cons definition rest ih => exact ih (start.merge definition)
  exact from_ empty

theorem groupsOf_mergeAll (type : String) : (mergeAll definitions).groupsOf type =
    (definitions.map (·.groupsOf type)).foldl mergeGroups .empty := by
  rw [groupsOf, types_mergeAll, Dict.getD_foldl_join, List.map_map]
  rfl

theorem mergeAll_append_singleton (definitions : List Definition) (last : Definition) :
    mergeAll (definitions ++ [last]) = (mergeAll definitions).merge last :=
  List.foldl_append

/-- What a definition holds that others are merged into: all their types and groups, each where it
first appeared, and the trees of each group one after the other. -/
structure Gathers (definition : Definition) (definitions : List Definition) : Prop where
  types : definition.typeNames = (definitions.flatMap typeNames).eraseDups
  groups : ∀ type, (definition.groupsOf type).keys =
    (definitions.flatMap fun each => (each.groupsOf type).keys).eraseDups
  trees : ∀ type group, definition.trees type group =
    definitions.flatMap fun each => each.trees type group

theorem gathers_mergeAll (definitions : List Definition) :
    (mergeAll definitions).Gathers definitions := by
  constructor
  case types =>
    rw [typeNames, types_mergeAll, Dict.keys_foldl_join, List.flatMap_map]
    rfl
  case groups =>
    intro type
    rw [groupsOf_mergeAll, mergeGroups_eq_join, Dict.keys_foldl_join, List.flatMap_map]
  case trees =>
    intro type group
    have held (each : Definition) :
        ((each.groupsOf type).get? group).getD [] = each.trees type group := trees_eq_getD.symm
    rw [trees_eq_getD, groupsOf_mergeAll, mergeGroups_eq_join, Dict.getD_foldl_join, List.map_map]
    simp only [Function.comp_def, held, List.foldl_map]
    rw [List.foldl_append_eq_append, List.nil_append, List.flatMap]

theorem merge_assoc (first second third : Definition) :
    (first.merge second).merge third = first.merge (second.merge third) := by
  have types : ((first.merge second).merge third).types =
      (first.merge (second.merge third)).types := by
    rw [types_merge, types_merge, types_merge, types_merge]
    exact Std.Associative.assoc _ _ _
  exact congrArg mk types

theorem empty_merge (definition : Definition) : empty.merge definition = definition := by
  have types : (empty.merge definition).types = definition.types := by
    rw [types_merge]
    exact Std.LawfulLeftIdentity.left_id _
  exact congrArg mk types

/-- Merging is associative, the empty definition is neutral on both sides, and many definitions are
merged into what they hold, with types and groups in the order of first appearance. -/
theorem merge_ordered_monoid :
    (∀ first second third : Definition,
      (first.merge second).merge third = first.merge (second.merge third)) ∧
    (∀ definition : Definition,
      empty.merge definition = definition ∧ definition.merge empty = definition) ∧
    ∀ definitions : List Definition, (mergeAll definitions).Gathers definitions := by
  refine ⟨merge_assoc, fun definition => ⟨empty_merge definition, ?_⟩, gathers_mergeAll⟩
  rfl

end Definition

namespace FileTree

variable {tree : FileTree} {xml : Option MappingReader} {loaded result : LoadedMappings}

def Reads (tree : FileTree) (xml : Option MappingReader) (path : Path) (definition : Definition) :
    Prop :=
  ∃ read, tree.reader? xml path = some read ∧ read path = .ok definition

/-- Whether what is loaded is the merge of what its files are read as, in order. -/
def Merges (tree : FileTree) (xml : Option MappingReader) (loaded : LoadedMappings) : Prop :=
  ∃ definitions, List.Forall₂ (tree.Reads xml) loaded.files definitions ∧
    loaded.definition = Definition.mergeAll definitions

theorem Merges.add (merges : tree.Merges xml loaded) {path : Path} {definition : Definition}
    (reads : tree.Reads xml path definition) :
    tree.Merges xml ⟨loaded.definition.merge definition, loaded.files ++ [path]⟩ := by
  obtain ⟨definitions, files, merged⟩ := merges
  refine ⟨definitions ++ [definition], List.rel_append files (.cons reads .nil), ?_⟩
  rw [Definition.mergeAll_append_singleton, merged]

theorem Merges.loadFiles {paths : List Path} (merges : tree.Merges xml loaded)
    (loads : tree.loadFiles xml paths loaded = .ok result) :
    tree.Merges xml result ∧
      result.files = loaded.files ++ paths.filter fun path => (tree.reader? xml path).isSome := by
  induction paths generalizing loaded with
  | nil =>
    cases loads
    exact ⟨merges, (List.append_nil _).symm⟩
  | cons path rest ih =>
    rw [FileTree.loadFiles] at loads
    cases found : tree.reader? xml path with
    | none =>
      rw [found] at loads
      obtain ⟨mergesRest, files⟩ := ih merges loads
      refine ⟨mergesRest, ?_⟩
      rw [files, List.filter_cons_of_neg (by simp [found])]
    | some read =>
      rw [found] at loads
      obtain ⟨definition, given, loadsRest⟩ := Except.bind_eq_ok_iff.mp loads
      obtain ⟨mergesRest, files⟩ := ih (merges.add ⟨read, found, given⟩) loadsRest
      refine ⟨mergesRest, ?_⟩
      rw [files, List.filter_cons_of_pos (by simp [found]), List.append_assoc,
        List.singleton_append]

/-- The mapping files of some directories are loaded into the merge of what each of them declares. -/
theorem merges_loadMappings {directories : List Path}
    (loads : tree.loadMappings directories xml = .ok loaded) :
    tree.Merges xml loaded ∧ loaded.files =
      (directories.flatMap tree.discover).filter fun path => (tree.reader? xml path).isSome := by
  have none_ : tree.Merges xml {} := ⟨[], .nil, rfl⟩
  exact none_.loadFiles loads

end FileTree

end Visibility
