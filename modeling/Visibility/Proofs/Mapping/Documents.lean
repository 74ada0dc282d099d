import Visibility.Proofs.Mapping.Failing
import Visibility.Proofs.Mapping.Loaded
import Visibility.Proofs.Yaml.Keys

set_option autoImplicit false
set_option relaxedAutoImplicit false

/-!
Which documents declare a definition, and which one.

A document is a sheet of types, each with groups, each with a tree.  Reading it pushes its trees in
document order, and refuses all else; so the definition lists what the sheet does, without the types
that have no group.  Definitions that are merged from documents have no empty tree, for which the walk
would fail.
-/

namespace Visibility

abbrev Sheet.Groups := List (String × Tree)

/-- What a document writes: types in order, each with its groups. -/
abbrev Sheet := List (String × Sheet.Groups)

namespace Sheet

def Groups.pairs (groups : Sheet.Groups) : Yaml.Pairs :=
  groups.map fun group => (.string group.1, .mapping group.2)

def pairs (sheet : Sheet) : Yaml.Pairs :=
  sheet.map fun type => (.string type.1, .mapping type.2.pairs)

/-- The document of a sheet: a map of maps of maps. -/
def toYaml (sheet : Sheet) : Yaml :=
  .mapping sheet.pairs

theorem Groups.pairs_injective {first second : Sheet.Groups} (same : first.pairs = second.pairs) :
    first = second := by
  refine List.map_injective_iff.mpr ?_ same
  rintro ⟨_, _⟩ ⟨_, _⟩ ⟨⟩
  rfl

theorem toYaml_injective {first second : Sheet} (same : first.toYaml = second.toYaml) :
    first = second := by
  refine List.map_injective_iff.mpr ?_ (Yaml.mapping.inj same)
  rintro ⟨type, groups⟩ ⟨other, others⟩ written
  obtain ⟨sameType, sameGroups⟩ := Prod.mk.inj written
  exact Prod.ext (Yaml.string.inj sameType) (Groups.pairs_injective (Yaml.mapping.inj sameGroups))

def Groups.Proper (groups : Sheet.Groups) : Prop :=
  ∀ group ∈ groups, ':' ∉ group.1.toList ∧ group.2 ≠ []

def Proper (sheet : Sheet) : Prop :=
  ∀ type ∈ sheet, type.2.Proper

/-- Whether no map repeats a key. -/
structure Distinct (sheet : Sheet) : Prop where
  types : (sheet.map Prod.fst).Nodup
  groups : ∀ type ∈ sheet, (type.2.map Prod.fst).Nodup

theorem distinct_of_read? {text : String} {sheet : Sheet}
    (read : Yaml.read? text = some sheet.toYaml) : sheet.Distinct := by
  cases Yaml.keysApart_read? read with
  | mapping apart keys values =>
    refine ⟨apart.nodup fun groups : Sheet.Groups => .mapping groups.pairs, fun type present => ?_⟩
    cases values _ (List.mem_map_of_mem present) with
    | mapping apart keys values => exact apart.nodup Yaml.mapping

def Groups.listing (groups : Sheet.Groups) : List (String × List Tree) :=
  groups.map fun group => (group.1, [group.2])

/-- The types of a sheet that have a group, with their groups. -/
def listing (sheet : Sheet) : List (String × List (String × List Tree)) :=
  (sheet.filter fun type => !type.2.isEmpty).map fun type => (type.1, type.2.listing)

end Sheet

namespace Definition

variable {definition after later : Definition} {origin type : String}

def listing (definition : Definition) : List (String × List (String × List Tree)) :=
  definition.types.entries.map fun entry => (entry.1, entry.2.entries)

def pushGroups (definition : Definition) (type : String) (groups : Sheet.Groups) : Definition :=
  groups.foldl (fun definition group => definition.push type group.1 group.2) definition

def pushSheet (definition : Definition) (sheet : Sheet) : Definition :=
  sheet.foldl (fun definition type => definition.pushGroups type.1 type.2) definition

theorem groupTree_eq_ok_iff {group : String} {body : Yaml} {tree : Tree} :
    groupTree origin type group body = .ok tree ↔ tree ≠ [] ∧ body = .mapping tree := by
  unfold groupTree
  split
  · next pair pairs =>
    constructor
    · rintro ⟨⟩
      exact ⟨List.cons_ne_nil pair pairs, rfl⟩
    · rintro ⟨_, ⟨⟩⟩
      rfl
  · next other =>
    constructor
    · intro read
      split at read
      · contradiction
      · contradiction
    · rintro ⟨filled, rfl⟩
      obtain ⟨pair, pairs, rfl⟩ := List.exists_cons_of_ne_nil filled
      exact absurd rfl (other pair pairs)

theorem addGroups_cons_eq_ok_iff {key body : Yaml} {rest : Yaml.Pairs} :
    addGroups origin type definition ((key, body) :: rest) = .ok after ↔
      ∃ group tree, key = .string group ∧ ':' ∉ group.toList ∧ tree ≠ [] ∧ body = .mapping tree ∧
        addGroups origin type (definition.push type group tree) rest = .ok after := by
  constructor
  · intro added
    rw [addGroups] at added
    obtain ⟨group, named, addedGroup⟩ := Except.bind_eq_ok_iff.mp added
    cases key with
    | string text =>
      cases named
      split at addedGroup
      · obtain ⟨_, failed, _⟩ := Except.bind_eq_ok_iff.mp addedGroup
        contradiction
      · next undotted =>
        obtain ⟨tree, read, addedRest⟩ := Except.bind_eq_ok_iff.mp addedGroup
        obtain ⟨filled, rfl⟩ := groupTree_eq_ok_iff.mp read
        rw [List.contains_iff_mem] at undotted
        exact ⟨group, tree, rfl, undotted, filled, rfl, addedRest⟩
    | _ => cases named
  · rintro ⟨group, tree, rfl, undotted, filled, rfl, addedRest⟩
    rw [addGroups]
    refine Except.bind_eq_ok_iff.mpr ⟨group, rfl, ?_⟩
    rw [if_neg (by rwa [List.contains_iff_mem])]
    exact Except.bind_eq_ok_iff.mpr ⟨tree, groupTree_eq_ok_iff.mpr ⟨filled, rfl⟩, addedRest⟩

theorem addGroups_eq_ok_iff {pairs : Yaml.Pairs} :
    addGroups origin type definition pairs = .ok after ↔
      ∃ groups : Sheet.Groups, groups.Proper ∧ pairs = groups.pairs ∧
        after = definition.pushGroups type groups := by
  induction pairs generalizing definition with
  | nil =>
    constructor
    · rintro ⟨⟩
      exact ⟨[], nofun, rfl, rfl⟩
    · rintro ⟨groups, _, written, rfl⟩
      cases List.map_eq_nil_iff.mp written.symm
      rfl
  | cons pair rest ih =>
    obtain ⟨key, body⟩ := pair
    rw [addGroups_cons_eq_ok_iff]
    simp only [ih]
    constructor
    · rintro ⟨group, tree, rfl, undotted, filled, rfl, groups, proper, rfl, rfl⟩
      exact ⟨(group, tree) :: groups, List.forall_mem_cons.mpr ⟨⟨undotted, filled⟩, proper⟩, rfl,
        rfl⟩
    · rintro ⟨groups, proper, written, rfl⟩
      cases groups with
      | nil => contradiction
      | cons group groups =>
        cases written
        obtain ⟨⟨undotted, filled⟩, properRest⟩ := List.forall_mem_cons.mp proper
        exact ⟨group.1, group.2, rfl, undotted, filled, rfl, groups, properRest, rfl, rfl⟩

theorem addTypes_cons_eq_ok_iff {key body : Yaml} {rest : Yaml.Pairs} :
    addTypes origin definition ((key, body) :: rest) = .ok after ↔
      ∃ type, ∃ groups : Sheet.Groups, key = .string type ∧ groups.Proper ∧
        body = .mapping groups.pairs ∧
        addTypes origin (definition.pushGroups type groups) rest = .ok after := by
  constructor
  · intro added
    rw [addTypes] at added
    obtain ⟨type, named, addedType⟩ := Except.bind_eq_ok_iff.mp added
    cases key with
    | string text =>
      cases named
      split at addedType
      · obtain ⟨between, addedGroups, addedRest⟩ := Except.bind_eq_ok_iff.mp addedType
        obtain ⟨groups, proper, rfl, rfl⟩ := addGroups_eq_ok_iff.mp addedGroups
        exact ⟨type, groups, rfl, proper, rfl, addedRest⟩
      · contradiction
    | _ => cases named
  · rintro ⟨type, groups, rfl, proper, rfl, addedRest⟩
    rw [addTypes]
    refine Except.bind_eq_ok_iff.mpr ⟨type, rfl, ?_⟩
    exact Except.bind_eq_ok_iff.mpr
      ⟨_, addGroups_eq_ok_iff.mpr ⟨groups, proper, rfl, rfl⟩, addedRest⟩

theorem addTypes_eq_ok_iff {pairs : Yaml.Pairs} :
    addTypes origin definition pairs = .ok after ↔
      ∃ sheet : Sheet, sheet.Proper ∧ pairs = sheet.pairs ∧ after = definition.pushSheet sheet := by
  induction pairs generalizing definition with
  | nil =>
    constructor
    · rintro ⟨⟩
      exact ⟨[], nofun, rfl, rfl⟩
    · rintro ⟨sheet, _, written, rfl⟩
      cases List.map_eq_nil_iff.mp written.symm
      rfl
  | cons pair rest ih =>
    obtain ⟨key, body⟩ := pair
    rw [addTypes_cons_eq_ok_iff]
    simp only [ih]
    constructor
    · rintro ⟨type, groups, rfl, proper, rfl, sheet, properRest, rfl, rfl⟩
      exact ⟨(type, groups) :: sheet, List.forall_mem_cons.mpr ⟨proper, properRest⟩, rfl, rfl⟩
    · rintro ⟨sheet, proper, written, rfl⟩
      cases sheet with
      | nil => contradiction
      | cons type sheet =>
        cases written
        obtain ⟨here, properRest⟩ := List.forall_mem_cons.mp proper
        exact ⟨type.1, type.2, rfl, here, rfl, sheet, properRest, rfl, rfl⟩

/-- A document is read where it is null or that of a proper sheet, whose trees are then pushed. -/
theorem ofYaml_eq_ok_iff {value : Yaml} :
    ofYaml origin value = .ok definition ↔
      value = .null ∧ definition = empty ∨
        ∃ sheet : Sheet, sheet.Proper ∧ value = sheet.toYaml ∧ definition = empty.pushSheet sheet := by
  cases value with
  | null => simp [ofYaml, Sheet.toYaml, eq_comm]
  | mapping pairs => simp [ofYaml, Sheet.toYaml, addTypes_eq_ok_iff]
  | _ => simp [ofYaml, Sheet.toYaml]

theorem listing_push (definition : Definition) (type group : String) (tree : Tree) :
    (definition.push type group tree).listing =
      Assoc.alter type (fun groups? =>
        Assoc.alter group (fun trees? => trees?.getD [] ++ [tree]) (groups?.getD []))
        definition.listing := by
  refine Assoc.map_alter type Dict.entries (fun groups? => ?_) definition.types.entries
  cases groups? <;> rfl

theorem listing_pushGroups_of_last {before : List (String × List (String × List Tree))}
    {known : List (String × List Tree)} {groups : Sheet.Groups}
    (absent : type ∉ before.map Prod.fst) (new : ((known.map Prod.fst) ++ groups.map Prod.fst).Nodup)
    (listed : definition.listing = before ++ [(type, known)]) :
    (definition.pushGroups type groups).listing = before ++ [(type, known ++ groups.listing)] := by
  induction groups generalizing definition known with
  | nil => rw [Sheet.Groups.listing, List.map_nil, List.append_nil]; exact listed
  | cons group rest ih =>
    have fresh : group.1 ∉ known.map Prod.fst := by
      intro twice
      exact (List.nodup_append.mp new).2.2 _ twice _ List.mem_cons_self rfl
    have added : Assoc.alter group.1 (fun trees? => trees?.getD [] ++ [group.2]) known =
        known ++ [(group.1, [group.2])] :=
      Assoc.alter_of_not_mem fresh _
    have pushed : (definition.push type group.1 group.2).listing =
        before ++ [(type, known ++ [(group.1, [group.2])])] := by
      rw [listing_push, listed, Assoc.alter_append absent, Assoc.alter, if_pos rfl,
        Option.getD_some, added]
    have newRest : ((known ++ [(group.1, [group.2])]).map Prod.fst ++ rest.map Prod.fst).Nodup := by
      rw [List.map_append, List.append_assoc]
      exact new
    have listedRest := ih newRest pushed
    rw [List.append_assoc] at listedRest
    exact listedRest

theorem listing_pushGroups {groups : Sheet.Groups} (absent : type ∉ definition.listing.map Prod.fst)
    (distinct : (groups.map Prod.fst).Nodup) :
    (definition.pushGroups type groups).listing =
      definition.listing ++ Sheet.listing [(type, groups)] := by
  cases groups with
  | nil => exact (List.append_nil _).symm
  | cons group rest =>
    have first : (definition.push type group.1 group.2).listing =
        definition.listing ++ [(type, [(group.1, [group.2])])] :=
      (listing_push definition type group.1 group.2).trans (Assoc.alter_of_not_mem absent _)
    have new : (([(group.1, [group.2])] : List (String × List Tree)).map Prod.fst ++
        rest.map Prod.fst).Nodup := distinct
    exact listing_pushGroups_of_last absent new first

theorem listing_pushSheet {sheet : Sheet} (distinct : sheet.Distinct)
    (new : ∀ type ∈ sheet, type.1 ∉ definition.listing.map Prod.fst) :
    (definition.pushSheet sheet).listing = definition.listing ++ sheet.listing := by
  induction sheet generalizing definition with
  | nil => exact (List.append_nil _).symm
  | cons type rest ih =>
    obtain ⟨here, later⟩ := List.forall_mem_cons.mp new
    obtain ⟨unlike, distinctRest⟩ := List.nodup_cons.mp distinct.types
    obtain ⟨distinctHere, distinctLater⟩ := List.forall_mem_cons.mp distinct.groups
    have pushed := listing_pushGroups here distinctHere
    have newRest : ∀ other ∈ rest,
        other.1 ∉ (definition.pushGroups type.1 type.2).listing.map Prod.fst := by
      intro other present listed
      rw [pushed, List.map_append, List.mem_append] at listed
      rcases listed with before | own
      · exact later other present before
      · obtain ⟨entry, inOwn, same⟩ := List.mem_map.mp own
        obtain ⟨found, filtered, rfl⟩ := List.mem_map.mp inOwn
        cases List.mem_singleton.mp (List.mem_of_mem_filter filtered)
        exact unlike (List.mem_map.mpr ⟨other, present, same.symm⟩)
    have rested := ih ⟨distinctRest, distinctLater⟩ newRest
    rw [pushed, List.append_assoc] at rested
    refine Eq.trans rested ?_
    rw [Sheet.listing, Sheet.listing, Sheet.listing, ← List.map_append, ← List.filter_append,
      List.singleton_append]

theorem mem_trees_push {group name : String} {tree other : Tree}
    (declared : other ∈ (definition.push type group tree).trees origin name) :
    other ∈ definition.trees origin name ∨ other = tree := by
  rw [trees_eq_getD, groupsOf_push] at declared
  rw [trees_eq_getD]
  split at declared
  · next sameType =>
    subst sameType
    rw [Dict.get?_alter] at declared
    split at declared
    · next sameGroup =>
      subst sameGroup
      rcases List.mem_append.mp declared with before | added
      · exact .inl before
      · exact .inr (List.mem_singleton.mp added)
    · exact .inl declared
  · exact .inl declared

theorem Filled.pushGroups (filled : definition.Filled) {groups : Sheet.Groups}
    (proper : groups.Proper) : (definition.pushGroups type groups).Filled := by
  induction groups generalizing definition with
  | nil => exact filled
  | cons group rest ih =>
    obtain ⟨⟨_, nonempty⟩, properRest⟩ := List.forall_mem_cons.mp proper
    refine ih (fun owner name tree declared => ?_) properRest
    rcases mem_trees_push declared with before | rfl
    · exact filled owner name tree before
    · exact nonempty

theorem Filled.pushSheet (filled : definition.Filled) {sheet : Sheet} (proper : sheet.Proper) :
    (definition.pushSheet sheet).Filled := by
  induction sheet generalizing definition with
  | nil => exact filled
  | cons type rest ih =>
    obtain ⟨here, properRest⟩ := List.forall_mem_cons.mp proper
    exact ih (filled.pushGroups here) properRest

theorem Filled.merge (filled : definition.Filled) (filledLater : later.Filled) :
    (definition.merge later).Filled := by
  intro type group tree declared
  rw [trees_merge, List.mem_append] at declared
  rcases declared with before | added
  · exact filled type group tree before
  · exact filledLater type group tree added

theorem filled_empty : Filled .empty := by
  intro type group tree declared
  contradiction

theorem Loaded.filled (loaded : definition.Loaded) : definition.Filled := by
  induction loaded with
  | document read =>
    rcases ofYaml_eq_ok_iff.mp read with ⟨_, rfl⟩ | ⟨sheet, proper, _, rfl⟩
    · exact filled_empty
    · exact filled_empty.pushSheet proper
  | merge _ _ first second => exact first.merge second

theorem Loaded.tables_ne_emptyGroup (loaded : definition.Loaded) (resolver : Resolver)
    (type group origin : String) :
    definition.tables resolver ≠ .error (.emptyGroup type group origin) := by
  intro failed
  obtain ⟨_, _, blamed⟩ := loaded.filled.failsOnly_tables resolver _ failed
  cases blamed

/-- A value is read where it is null or a map of types, whose groups have no colon in their names and
a tree that holds something.  A map that repeats no key, as none that is read from a text does, declares
those of its types that have a group, in document order, each with its groups and the one tree of each
group.  Whatever is merged from such definitions keeps to the names and trees, so that its walk meets no
empty group. -/
theorem ofYaml_sheet :
    (∀ origin value, (∃ definition, ofYaml origin value = .ok definition) ↔
      value = .null ∨ ∃ sheet : Sheet, sheet.Proper ∧ value = sheet.toYaml) ∧
    (∀ origin definition, ofYaml origin .null = .ok definition → definition.listing = []) ∧
    (∀ origin (sheet : Sheet) definition, sheet.Distinct →
      ofYaml origin sheet.toYaml = .ok definition → definition.listing = sheet.listing) ∧
    (∀ text (sheet : Sheet), Yaml.read? text = some sheet.toYaml → sheet.Distinct) ∧
    ∀ definition : Definition, definition.Loaded → definition.Plain ∧ definition.Filled ∧
      ∀ resolver type group origin,
        definition.tables resolver ≠ .error (.emptyGroup type group origin) := by
  refine ⟨fun origin value => ?_, fun origin definition read => ?_,
    fun origin sheet definition distinct read => ?_, fun text sheet => Sheet.distinct_of_read?,
    fun definition loaded => ?_⟩
  · constructor
    · rintro ⟨definition, read⟩
      rcases ofYaml_eq_ok_iff.mp read with ⟨rfl, _⟩ | ⟨sheet, proper, rfl, _⟩
      · exact .inl rfl
      · exact .inr ⟨sheet, proper, rfl⟩
    · rintro (rfl | ⟨sheet, proper, rfl⟩)
      · exact ⟨empty, rfl⟩
      · exact ⟨_, ofYaml_eq_ok_iff.mpr (.inr ⟨sheet, proper, rfl, rfl⟩)⟩
  · cases read
    rfl
  · obtain ⟨written, _, same, rfl⟩ := (ofYaml_eq_ok_iff.mp read).resolve_left nofun
    obtain rfl : sheet = written := Sheet.toYaml_injective same
    exact listing_pushSheet distinct fun _ _ => List.not_mem_nil
  · exact ⟨loaded.plain, loaded.filled, loaded.tables_ne_emptyGroup⟩

def catalogue : String :=
  "Author: \x7b\x7d\nBook:\n  item.normalization.get:\n    title:\n" ++
    "  item.denormalization.put:\n    title:\n    isbn:\n"

theorem ofYaml_sheet_catalogue : ∃ (sheet : Sheet) (definition : Definition),
    Yaml.read? catalogue = some sheet.toYaml ∧ sheet.Distinct ∧
      ofYaml "catalogue" sheet.toYaml = .ok definition ∧ definition.listing = sheet.listing ∧
      (definition.listing.map fun type => (type.1, type.2.map Prod.fst)) =
        [("Book", ["item.normalization.get", "item.denormalization.put"])] ∧
      definition.Loaded ∧ definition.Plain ∧ definition.Filled := by
  have declares : ((Yaml.read? catalogue).bind fun value =>
      (ofYaml "catalogue" value).toOption.map fun definition =>
        definition.listing.map fun type => (type.1, type.2.map Prod.fst)) =
      some [("Book", ["item.normalization.get", "item.denormalization.put"])] := by decide +kernel
  obtain ⟨value, written, declared⟩ := Option.bind_eq_some_iff.mp declares
  obtain ⟨definition, given, names⟩ := Option.map_eq_some_iff.mp declared
  have read := Except.toOption_eq_some_iff.mp given
  have loaded : definition.Loaded := .document read
  obtain ⟨plain, filled, _⟩ := ofYaml_sheet.2.2.2.2 definition loaded
  rcases (ofYaml_sheet.1 _ value).mp ⟨definition, read⟩ with rfl | ⟨sheet, _, rfl⟩
  · rw [ofYaml_sheet.2.1 _ definition read] at names
    cases names
  · have distinct := ofYaml_sheet.2.2.2.1 _ sheet written
    exact ⟨sheet, definition, written, distinct, read,
      ofYaml_sheet.2.2.1 _ sheet definition distinct read, names, loaded, plain, filled⟩

end Definition

end Visibility
