import Visibility.Proofs.Groups.Activation
import Visibility.Proofs.Mapping.Guards
import Visibility.Proofs.Mapping.Listing
import Visibility.Proofs.Mapping.Tagging

set_option autoImplicit false
set_option relaxedAutoImplicit false

/-!
Who sees which fields.

The main statement reads the answer to a request off the trees of a definition: a field is visible
where it occurs in a group that concerns the request, under guards that all come out true.
-/

namespace Visibility

/-- A definition of regular trees whose types and groups have no colon in their names, and whose
security expressions all parse. -/
structure Definition.WellGuarded (definition : Definition) : Prop where
  regular : definition.Regular
  types : ∀ type ∈ definition.typeNames, ':' ∉ type.toList
  groups : ∀ type groups, definition.types.get? type = some groups →
    ∀ group ∈ groups.keys, ':' ∉ group.toList
  expressions : ∀ type group, ∀ tree ∈ definition.trees type group, ∀ expression,
    Tree.Gives tree expression → (Expr.parse? expression).isSome

namespace Definition

variable {definition : Definition} {resolver : Resolver} {type group : String} {ref : FieldRef}
  {guards : List String}

theorem WellGuarded.not_colon (guarded : definition.WellGuarded)
    (occurs : definition.Occurs resolver type group ref guards) :
    ':' ∉ type.toList ∧ ':' ∉ group.toList := by
  obtain ⟨tree, declared, _⟩ := occurs
  obtain ⟨groups, trees, hasType, hasGroup, _⟩ := mem_trees_iff.mp declared
  have named : type ∈ definition.typeNames := List.mem_map.mpr ⟨_, hasType, rfl⟩
  have inGroups : group ∈ groups.keys := List.mem_map.mpr ⟨_, hasGroup, rfl⟩
  rw [Dict.mem_entries_iff] at hasType
  exact ⟨guarded.types type named, guarded.groups type groups hasType group inGroups⟩

theorem WellGuarded.accepted (guarded : definition.WellGuarded)
    (occurs : definition.Occurs resolver type group ref guards) :
    ∀ guard ∈ guards, (Expr.parse? guard).isSome := by
  obtain ⟨tree, declared, occurs⟩ := occurs
  intro guard given
  rcases occurs.inherited_or_gives given with impossible | gives
  · contradiction
  · exact guarded.expressions type group tree declared guard gives

end Definition

namespace GroupQuery

variable {query : GroupQuery} {tag : Tag}

theorem fits_parse_iff (plain : ':' ∉ tag.group.toList) :
    (GroupTag.parse tag.type tag.text).fits query.operation query.direction query.policy = true ↔
      query.Concerns tag.group := by
  rw [GroupTag.parse_text plain]
  exact decide_eq_true_iff

theorem passes_parse_iff {guards : List String} (plain : ':' ∉ tag.group.toList)
    (accepted : ∀ guard ∈ guards, (Expr.parse? guard).isSome)
    (joins : tag.condition = joined guards) :
    query.Passes evaluate (GroupTag.parse tag.type tag.text) ↔
      (∀ guard ∈ guards, Holds query.environment guard) ∧
        (query.instance_ = none → ∀ guard ∈ guards, ¬ ReadsInstance guard) := by
  rw [GroupTag.parse_text plain]
  unfold Passes
  dsimp only
  cases condition : tag.condition with
  | none =>
    rw [condition, eq_comm, joined_eq_none_iff] at joins
    simp [joins]
  | some criteria =>
    rw [condition] at joins
    obtain ⟨holds, reads⟩ := condition_of_joined accepted joins.symm
    have unread : (∀ guard ∈ guards, ¬ ReadsInstance guard) ↔ ¬ ReadsInstance criteria := by
      rw [reads]
      simp
    have asks : query.lacksInstance
        { raw := tag.text, group := tag.group, concerns := (GroupTag.parts tag.group).1,
          mode := (GroupTag.parts tag.group).2.1, verb := (GroupTag.parts tag.group).2.2,
          criteria := some criteria } = false ↔
        (query.instance_ = none → ∀ guard ∈ guards, ¬ ReadsInstance guard) := by
      rw [unread, ReadsInstance, lacksInstance, GroupTag.needsInstance]
      cases query.instance_ <;> simp
    simp only [Option.some.injEq, forall_eq', asks]
    rw [and_comm, ← holds]
    rfl

theorem text_mem_active_iff {definition : Definition} {resolver : Resolver} {steps : List Step}
    (guarded : definition.WellGuarded) (walked : definition.steps resolver = .ok steps)
    {type : String} {table : Table} (found : (Tables.ofSteps steps).get? type = some table)
    {active : List String} (answered : (query.active evaluate table).result = .ok active)
    {ref : FieldRef} {guards : List String}
    (occurs : definition.Occurs resolver tag.type tag.group ref guards)
    (joins : tag.condition = joined guards) :
    tag.text ∈ active ↔ tag.type = type ∧ query.Concerns tag.group ∧
      (∀ guard ∈ guards, Holds query.environment guard) ∧
      (query.instance_ = none → ∀ guard ∈ guards, ¬ ReadsInstance guard) := by
  have titled : table.type = type := Tables.titled_ofSteps steps type table found
  obtain ⟨plainType, plainGroup⟩ := guarded.not_colon occurs
  have listed : tag.text ∈ table.allGroups.toList ↔ tag.type = type := by
    have lists := Tables.lists_ofSteps_iff steps type tag.text
    simp only [Tables.Lists, found, Option.some.injEq, exists_eq_left'] at lists
    rw [← OrderedSet.mem_def, lists]
    constructor
    · rintro ⟨other, present, rfl, same⟩
      obtain ⟨_, given⟩ := (definition.catchAll_mem_steps_iff walked other).mp present
      obtain ⟨_, otherOccurs, _⟩ := (definition.tag_mem_steps_iff guarded.regular walked _ other).mp given
      exact Tag.type_eq_of_text_eq plainType (guarded.not_colon otherOccurs).1 same.symm
    · rintro same
      have given := (definition.tag_mem_steps_iff guarded.regular walked ref tag).mpr
        ⟨guards, occurs, joins⟩
      exact ⟨tag, (definition.catchAll_mem_steps_iff walked tag).mpr ⟨ref, given⟩, same, rfl⟩
  rw [mem_activeAmong_iff answered, listed]
  refine and_congr_right fun same => ?_
  rw [titled, ← same, Activates, fits_parse_iff plainGroup,
    passes_parse_iff plainGroup (guarded.accepted occurs) joins]

end GroupQuery

theorem Table.isVisible_iff {table : Table} {field : String} {active : List String} :
    table.isVisible field active = true ↔
      ∃ entry, table.get? field = some entry ∧ entry.ignored = false ∧
        ∃ text ∈ active, text ∈ entry.groups := by
  unfold isVisible
  cases table.get? field with
  | none => simp
  | some entry => simp [Entry.isVisible, Entry.isTaggedWithAny]

/-- A field is visible to a request exactly where its entry is not ignored, and the trees of the
requested type have an occurrence of it in a group that concerns the request, under guards that all
come out true; without an instance, none of them may read one. -/
theorem Definition.isVisible_iff_occurs {definition : Definition} {resolver : Resolver}
    {tables : Tables} (guarded : definition.WellGuarded)
    (built : definition.tables resolver = .ok tables)
    {type : String} {table : Table} (found : tables.get? type = some table)
    {query : GroupQuery} {active : List String}
    (answered : (query.active evaluate table).result = .ok active)
    {owner : String} {other : Table} (reached : tables.get? owner = some other) (field : String) :
    other.isVisible field active = true ↔
      (∃ entry, other.get? field = some entry ∧ entry.ignored = false) ∧
        ∃ group guards, definition.Occurs resolver type group ⟨owner, field⟩ guards ∧
          query.Concerns group ∧
          (∀ guard ∈ guards, Holds query.environment guard) ∧
          (query.instance_ = none → ∀ guard ∈ guards, ¬ ReadsInstance guard) := by
  obtain ⟨steps, walked, rfl⟩ := tables_eq_ok_iff.mp built
  have entryOf : (Tables.ofSteps steps).entryAt? ⟨owner, field⟩ = other.get? field := by
    simp [Tables.entryAt?, reached]
  rw [Table.isVisible_iff]
  constructor
  · rintro ⟨entry, present, shown, text, on, inGroups⟩
    have tagged : (Tables.ofSteps steps).Tagged ⟨owner, field⟩ text :=
      ⟨entry, entryOf.trans present, inGroups⟩
    obtain ⟨tag, given, rfl⟩ := (Tables.tagged_ofSteps_iff steps _ text).mp tagged
    obtain ⟨guards, occurs, joins⟩ := (tag_mem_steps_iff guarded.regular walked _ tag).mp given
    obtain ⟨rfl, passes⟩ :=
      (GroupQuery.text_mem_active_iff guarded walked found answered occurs joins).mp on
    exact ⟨⟨entry, present, shown⟩, tag.group, guards, occurs, passes⟩
  · rintro ⟨⟨entry, present, shown⟩, group, guards, occurs, passes⟩
    let tag : Tag := ⟨type, group, joined guards⟩
    have given : .tag ⟨owner, field⟩ tag ∈ steps :=
      (tag_mem_steps_iff guarded.regular walked _ tag).mpr ⟨guards, occurs, rfl⟩
    have on : tag.text ∈ active :=
      (GroupQuery.text_mem_active_iff guarded walked found answered occurs rfl).mpr ⟨rfl, passes⟩
    obtain ⟨held, presentToo, inGroups⟩ :=
      (Tables.tagged_ofSteps_iff steps _ tag.text).mpr ⟨tag, given, rfl⟩
    obtain rfl : entry = held := by
      rw [entryOf, present] at presentToo
      exact Option.some.inj presentToo
    exact ⟨entry, present, shown, tag.text, on, inGroups⟩

theorem wellGuarded_guardedBooks : guardedBooks.WellGuarded := by
  refine ⟨regular_guardedBooks, by decide +kernel, fun type groups found => ?_, ?_⟩
  · rw [← Dict.mem_entries_iff] at found
    cases List.mem_singleton.mp found
    decide +kernel
  · rintro type group tree declared expression ⟨level, directive, below, _, found⟩
    obtain ⟨_, _, rfl⟩ := eq_of_mem_trees_guardedBooks declared
    obtain ⟨pair, present, read⟩ := Tree.exists_of_expressionAt? found
    cases below with
    | self =>
      cases List.mem_singleton.mp present
      contradiction
    | inside outer below =>
      cases List.mem_singleton.mp outer
      cases below with
      | self =>
        have staff : (Expr.parse? (Text.trim "is_granted('STAFF')")).isSome := by decide +kernel
        have admin : (Expr.parse? (Text.trim "is_granted('ADMIN')")).isSome := by decide +kernel
        simp only [List.mem_cons, List.not_mem_nil, or_false] at present
        rcases present with rfl | rfl | rfl
        · cases read
          exact staff
        · cases read
          exact admin
        · contradiction
      | inside outer => simp at outer

theorem Definition.isVisible_iff_occurs_contact :
    guardedBooks.WellGuarded ∧ ∃ tables table other active,
      guardedBooks.tables bookResolver = .ok tables ∧ tables.get? "Book" = some table ∧
      (GroupQuery.active
        { operation := .item, direction := .normalization,
          caller := RoleHolder.toCaller { roles := ["STAFF", "ADMIN"] } } evaluate table).result =
        .ok active ∧
      tables.get? "Publisher" = some other ∧ other.isVisible "contact" active = true := by
  let staff : Tag := ⟨"Book", "item.normalization.get", some "is_granted('STAFF')"⟩
  let both : Tag :=
    ⟨"Book", "item.normalization.get", some "(is_granted('STAFF')) and (is_granted('ADMIN'))"⟩
  let steps : List Step :=
    [.table "Book", .entry ⟨"Book", "publisher"⟩, .tag ⟨"Book", "publisher"⟩ staff, .catchAll staff,
      .entry ⟨"Publisher", "contact"⟩, .tag ⟨"Publisher", "contact"⟩ both, .catchAll both]
  have walked : guardedBooks.steps bookResolver = .ok steps :=
    Except.toOption_eq_some_iff.mp (by decide +kernel)
  let tables := Tables.ofSteps steps
  have built : guardedBooks.tables bookResolver = .ok tables :=
    tables_eq_ok_iff.mpr ⟨steps, walked, rfl⟩
  let query : GroupQuery :=
    { operation := .item, direction := .normalization,
      caller := RoleHolder.toCaller { roles := ["STAFF", "ADMIN"] } }
  let book : Table := (tables.get? "Book").getD (.empty "Book")
  let publisher : Table := (tables.get? "Publisher").getD (.empty "Publisher")
  have found : some book = tables.get? "Book" :=
    Option.getD_of_ne_none (Option.isSome_iff_ne_none.mp (by decide +kernel)) _
  have reached : some publisher = tables.get? "Publisher" :=
    Option.getD_of_ne_none (Option.isSome_iff_ne_none.mp (by decide +kernel)) _
  obtain ⟨active, answered⟩ : ∃ active, (query.active evaluate book).result = .ok active :=
    Except.exists_of_isOk (by decide +kernel)
  have shown : ((publisher.get? "contact").map (·.ignored)) = some false := by decide +kernel
  obtain ⟨entry, present, seen⟩ := Option.map_eq_some_iff.mp shown
  refine ⟨wellGuarded_guardedBooks, tables, book, publisher, active, built, found.symm, answered,
    reached.symm, ?_⟩
  rw [isVisible_iff_occurs wellGuarded_guardedBooks built found.symm answered reached.symm]
  refine ⟨⟨entry, present, seen⟩, _, _, occurs_contact, by decide +kernel, by decide +kernel, ?_⟩
  intro _
  decide +kernel

end Visibility
