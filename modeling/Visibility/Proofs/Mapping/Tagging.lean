import Visibility.Proofs.Mapping.Filling
import Visibility.Proofs.Mapping.Walking

set_option autoImplicit false
set_option relaxedAutoImplicit false

/-!
Which tags a walk gives to which fields.

The conditions that the walk carries are those that the guards of a level join to, so that it tags a
field exactly where the field occurs in a tree.  The main statement says so of the tables of a whole
definition.
-/

namespace Visibility

/-- The conditions in force on a level are those that its guards join to. -/
structure Conditions.Express (conditions : Conditions) (inherited : List String) (level : Tree) :
    Prop where
  plain : conditions.inherited = joined (level.guards inherited)
  marked : ∀ marker, Segment.IsMarker marker → '.' ∉ marker.toList →
    conditions.named.get? marker = (level.guardsAt? inherited (some marker)).bind joined

theorem Conditions.Express.ofMarker_eq_ok_iff {conditions : Conditions} {inherited : List String}
    {level : Tree} (express : conditions.Express inherited level) {scope : Scope} {name : String}
    {marker? condition : Option String} {fields : List String}
    (spelled : Segment.Spells name marker? fields) :
    conditions.ofMarker scope marker? = .ok condition ↔
      ∃ above, level.guardsAt? inherited marker? = some above ∧ condition = joined above := by
  rw [Conditions.ofMarker_eq_ok_iff]
  cases marker? with
  | none => simp [Tree.guardsAt?, express.plain, eq_comm]
  | some marker =>
    have inPath : marker ∈ Segment.path name := by
      rw [spelled.path]
      exact List.mem_append_left _ (by simp)
    have found := express.marked marker (spelled.marked marker rfl)
      (Segment.not_dot_of_mem_path inPath)
    simp only [found, Tree.guardsAt?]
    cases level.expressionAt? (Segment.securityKey ++ marker) with
    | none => simp
    | some expression => simp [joined_append_singleton, eq_comm]

namespace Walk

variable {resolver : Resolver} {scope : Scope}

theorem hoisted_eq_ok {parent : Option FieldRef} {inherited : List String} {tree : Tree}
    {conditions : Conditions} {own : List Step}
    (distinct : (tree.map fun pair => pair.1.text?).Nodup)
    (walked : hoisted scope parent (joined inherited) tree = .ok (conditions, own)) :
    conditions.Express inherited tree ∧
      match tree.valueAt? Segment.securityKey with
      | none => own = []
      | some _ => ∃ ref expression, parent = some ref ∧
          tree.expressionAt? Segment.securityKey = some expression ∧
          own = [.tag ref (scope.tag (joined (tree.guards inherited))),
            .catchAll (scope.tag (joined (tree.guards inherited)))] := by
  simp only [hoisted, Except.bind_eq_ok_iff, Except.pure_eq_ok_iff, Prod.exists,
    Prod.mk.injEq] at walked
  obtain ⟨started, steps, applied, after, defined, rfl, rfl⟩ := walked
  have express (plain : started.inherited = joined (tree.guards inherited))
      (fresh : started.named = .empty) : after.Express inherited tree := by
    refine ⟨(inherited_namedSecurity defined).trans plain, fun marker marked absent => ?_⟩
    obtain ⟨hoisted, named⟩ := marked.isHoisted absent
    rw [named_namedSecurity hoisted named distinct defined, fresh, plain, Dict.get?_empty,
      Option.or_none, Tree.guardsAt?]
    cases tree.expressionAt? (Segment.securityKey ++ marker) with
    | none => rfl
    | some expression => simp [joined_append_singleton]
  cases present : tree.valueAt? Segment.securityKey with
  | none =>
    have nothing := ownSecurity_of_absent present applied
    simp only [Prod.mk.injEq] at nothing
    obtain ⟨rfl, rfl⟩ := nothing
    have bare : tree.guards inherited = inherited := by
      simp [Tree.guards, Tree.expressionAt?, present]
    exact ⟨express (by rw [bare]) rfl, rfl⟩
  | some value =>
    obtain ⟨expression, ref, given, enclosed, same⟩ :=
      security_eq_ok_iff.mp (ownSecurity_of_present distinct present applied)
    simp only [Prod.mk.injEq] at same
    obtain ⟨rfl, rfl⟩ := same
    have found : tree.expressionAt? Segment.securityKey = some expression := by
      rw [Tree.expressionAt?, present]
      exact (Scope.expression_eq_ok_iff.mp given).1
    have own : joined (tree.guards inherited) =
        some (conjoin (joined inherited) expression) := by
      rw [Tree.guards, found, Option.toList_some, joined_append_singleton]
    exact ⟨express own.symm rfl, ref, expression, enclosed, found, by rw [own]⟩

theorem tag_mem_fieldSteps_iff {ref at_ : FieldRef} {condition : Option String} {deferred : Bool}
    {tag : Tag} :
    .tag ref tag ∈ fieldSteps scope at_ condition deferred ↔
      deferred = false ∧ ref = at_ ∧ tag = scope.tag condition := by
  unfold fieldSteps
  cases deferred with
  | true => simp
  | false => simp

theorem guardsItself_mapping (sub : Tree) :
    guardsItself (.mapping sub) = (sub.valueAt? Segment.securityKey).isSome := by
  rw [Bool.eq_iff_iff, guardsItself, Tree.valueAt?, Option.isSome_map, List.find?_isSome]
  simp [Yaml.pairs?, Yaml.untagged]

/-- The tags that a level gives: those of the field around it, where the level has a `_security`
key, and those of the fields that occur in its tree. -/
def LevelTags (resolver : Resolver) (scope : Scope) (owner : Option String)
    (parent : Option FieldRef) (inherited : List String) (tree : Tree) (ref : FieldRef) (tag : Tag) :
    Prop :=
  parent = some ref ∧ (tree.valueAt? Segment.securityKey).isSome ∧
      tag = scope.tag (joined (tree.guards inherited)) ∨
    ∃ type all, owner = some type ∧ Occurs resolver ref all type inherited tree ∧
      tag = scope.tag (joined all)

theorem tag_mem_visitSteps_iff {key : String} {value : Yaml} {above : List String}
    {visit : FieldRef × Bool} {steps : List Step}
    (deeper : ∀ sub more, value = .mapping sub →
      level resolver scope (resolver.fieldType? visit.1.owner visit.1.field) (some visit.1)
        (joined above) sub = .ok more →
      ∀ ref tag, .tag ref tag ∈ more ↔
        LevelTags resolver scope (resolver.fieldType? visit.1.owner visit.1.field) (some visit.1)
          above sub ref tag)
    (walked : visitSteps resolver scope key value (inside resolver scope value) (joined above)
      visit = .ok steps) (ref : FieldRef) (tag : Tag) :
    .tag ref tag ∈ steps ↔
      visit.1 = ref ∧
        tag = scope.tag (joined (if visit.2 then above ++ ownGuards value else above)) ∨
      visit.2 = true ∧ ∃ sub next all, value = .mapping sub ∧
        resolver.fieldType? visit.1.owner visit.1.field = some next ∧
        Occurs resolver ref all next above sub ∧ tag = scope.tag (joined all) := by
  obtain ⟨outer, last⟩ := visit
  obtain ⟨more, walkedMore, rfl⟩ := visitSteps_eq_ok_iff.mp walked
  rw [List.mem_append, tag_mem_fieldSteps_iff]
  cases last with
  | false =>
    rw [if_neg (by nofun)] at walkedMore
    subst walkedMore
    simp [eq_comm]
  | true =>
    rw [if_pos rfl] at walkedMore
    simp only [if_true, Bool.true_and, true_and]
    cases value with
    | mapping sub =>
      have below : .tag ref tag ∈ more ↔ LevelTags resolver scope
          (resolver.fieldType? outer.owner outer.field) (some outer) above sub ref tag := by
        rw [descend_mapping] at walkedMore
        exact deeper sub more rfl walkedMore ref tag
      rw [below, LevelTags, guardsItself_mapping]
      -- a map that guards its field tags it in place of the path, with one more guard
      have own : ownGuards (.mapping sub) = (Tree.expressionAt? sub Segment.securityKey).toList := rfl
      have inner : (∃ type all, resolver.fieldType? outer.owner outer.field = some type ∧
            Occurs resolver ref all type above sub ∧ tag = scope.tag (joined all)) ↔
          ∃ sub' next all, Yaml.mapping sub = .mapping sub' ∧
            resolver.fieldType? outer.owner outer.field = some next ∧
            Occurs resolver ref all next above sub' ∧ tag = scope.tag (joined all) := by
        simp
      rw [inner, ← or_assoc]
      refine or_congr_left ?_
      cases present : Tree.valueAt? sub Segment.securityKey with
      | none =>
        have bare : Tree.expressionAt? sub Segment.securityKey = none := by
          rw [Tree.expressionAt?, present, Option.bind_none]
        rw [own, bare]
        simp [eq_comm]
      | some value =>
        rw [own]
        simp [Tree.guards]
    | null =>
      cases walkedMore
      simp [guardsItself, Yaml.pairs?, Yaml.untagged, ownGuards, eq_comm]
    | _ => cases walkedMore

theorem tag_mem_keySteps_iff {name type : String} {value : Yaml} {marker? : Option String}
    {fields inherited : List String} {tree : Tree} {conditions : Conditions}
    {parent : Option FieldRef} {steps : List Step}
    (express : conditions.Express inherited tree) (spelled : Segment.Spells name marker? fields)
    (deeper : ∀ sub above owner parent more, value = .mapping sub →
      level resolver scope owner parent (joined above) sub = .ok more →
      ∀ ref tag, .tag ref tag ∈ more ↔ LevelTags resolver scope owner parent above sub ref tag)
    (walked : keySteps resolver scope (some type) parent conditions (.string name, value) = .ok steps)
    (ref : FieldRef) (tag : Tag) :
    .tag ref tag ∈ steps ↔
      ∃ all, tag = scope.tag (joined all) ∧ ∃ above, tree.guardsAt? inherited marker? = some above ∧
        ∃ visit ∈ resolver.visits type fields,
          visit.1 = ref ∧ all = (if visit.2 then above ++ ownGuards value else above) ∨
          visit.2 = true ∧ ∃ sub next, value = .mapping sub ∧
            resolver.fieldType? visit.1.owner visit.1.field = some next ∧
            Occurs resolver ref all next above sub := by
  rw [keySteps, key_of_spelled spelled] at walked
  simp only [Except.map_eq_ok_iff, Except.bind_eq_ok_iff, Except.pure_eq_ok_iff] at walked
  obtain ⟨_, ⟨condition, marked, visited, collected, rfl⟩, rfl⟩ := walked
  obtain ⟨above, guarded, rfl⟩ := (express.ofMarker_eq_ok_iff spelled).mp marked
  have visiting (visit : FieldRef × Bool) (own : List Step)
      (walked : visitSteps resolver scope name value (inside resolver scope value) (joined above)
        visit = .ok own) :=
    tag_mem_visitSteps_iff
      (fun sub more same => deeper sub above _ (some visit.1) more same) walked ref tag
  rw [mem_collect_iff collected]
  constructor
  · rintro ⟨visit, reached, own, walked, present⟩
    rcases (visiting visit own walked).mp present with
      ⟨here, rfl⟩ | ⟨last, sub, next, all, held, leads, occurs, rfl⟩
    · exact ⟨_, rfl, above, guarded, visit, reached, .inl ⟨here, rfl⟩⟩
    · exact ⟨all, rfl, above, guarded, visit, reached,
        .inr ⟨last, sub, next, held, leads, occurs⟩⟩
  · rintro ⟨all, rfl, _, guardedToo, visit, reached, found⟩
    obtain rfl : above = _ := Option.some.inj (guarded.symm.trans guardedToo)
    obtain ⟨own, walked⟩ := exists_of_collect collected visit reached
    refine ⟨visit, reached, own, walked, (visiting visit own walked).mpr ?_⟩
    rcases found with ⟨here, rfl⟩ | ⟨last, sub, next, held, leads, occurs⟩
    · exact .inl ⟨here, rfl⟩
    · exact .inr ⟨last, sub, next, all, held, leads, occurs, rfl⟩

theorem tag_not_mem_keySteps {name : String} {value : Yaml} {owner : Option String}
    {conditions : Conditions} {parent : Option FieldRef} {steps : List Step}
    (bare : Segment.IsDirective name ∨
      owner = none ∧ ∃ marker? fields, Segment.Spells name marker? fields)
    (walked : keySteps resolver scope owner parent conditions (.string name, value) = .ok steps)
    (ref : FieldRef) (tag : Tag) : .tag ref tag ∉ steps := by
  rw [keySteps, Except.map_eq_ok_iff] at walked
  obtain ⟨⟨after, steps⟩, walked, rfl⟩ := walked
  rcases bare with directive | ⟨rfl, marker?, fields, spelled⟩
  · cases hoisted : Segment.isHoisted name with
    | true =>
      rw [key_of_isHoisted hoisted] at walked
      cases walked
      exact List.not_mem_nil
    | false =>
      rw [key_of_not_isHoisted hoisted] at walked
      exact (follow_directive directive hoisted walked).2 ref tag
  · rw [key_of_spelled_none spelled] at walked
    cases walked
    exact List.not_mem_nil

theorem tag_mem_level_iff (tree : Tree) (regular : tree.Regular) {inherited : List String}
    {owner : Option String} {parent : Option FieldRef} {steps : List Step}
    (walked : level resolver scope owner parent (joined inherited) tree = .ok steps)
    (ref : FieldRef) (tag : Tag) :
    .tag ref tag ∈ steps ↔ LevelTags resolver scope owner parent inherited tree ref tag := by
  induction tree using Tree.induct generalizing inherited owner parent steps ref tag with
  | step tree deeper =>
    obtain ⟨conditions, own, more, hoisted, walkedKeys, rfl⟩ := level_eq_ok_iff.mp walked
    obtain ⟨express, applied⟩ := hoisted_eq_ok regular.keys.distinct hoisted
    rw [keys_of_regular regular.keys.spelled] at walkedKeys
    rw [List.mem_append, LevelTags]
    refine or_congr ?_ ?_
    · cases present : tree.valueAt? Segment.securityKey with
      | none =>
        rw [present] at applied
        simp [applied]
      | some value =>
        rw [present] at applied
        obtain ⟨around, expression, rfl, _, rfl⟩ := applied
        simp [eq_comm]
    · rw [mem_collect_iff walkedKeys]
      have nested {key value : Yaml} (pair : (key, value) ∈ tree) :
          ∀ sub above owner parent more, value = .mapping sub →
            level resolver scope owner parent (joined above) sub = .ok more →
            ∀ ref tag, .tag ref tag ∈ more ↔
              LevelTags resolver scope owner parent above sub ref tag := by
        intro sub above owner parent more held walked ref tag
        subst held
        exact deeper key sub pair (regular.inside pair) walked ref tag
      constructor
      · rintro ⟨⟨key, value⟩, pair, steps, walked, present⟩
        obtain ⟨name, rfl, directive | ⟨marker?, fields, spelled⟩⟩ :=
          regular.keys.spelled key value pair
        · exact absurd present (tag_not_mem_keySteps (.inl directive) walked ref tag)
        · cases owner with
          | none =>
            have bare := tag_not_mem_keySteps (.inr ⟨rfl, marker?, fields, spelled⟩) walked ref tag
            exact absurd present bare
          | some type =>
            obtain ⟨all, same, above, guarded, ⟨outer, last⟩, visited, found⟩ :=
              (tag_mem_keySteps_iff express spelled (nested pair) walked ref tag).mp present
            refine ⟨type, all, rfl, ?_, same⟩
            rcases found with ⟨rfl, complete⟩ | ⟨rfl, sub, next, rfl, leads, occurs⟩
            · exact .here pair spelled guarded visited complete
            · exact .inside pair spelled guarded visited leads occurs
      · rintro ⟨type, all, rfl, occurs, same⟩
        cases occurs with
        | here pair spelled guarded visited complete =>
          obtain ⟨steps, walked⟩ := exists_of_collect walkedKeys _ pair
          refine ⟨_, pair, steps, walked, ?_⟩
          rw [tag_mem_keySteps_iff express spelled (nested pair) walked]
          exact ⟨all, same, _, guarded, _, visited, .inl ⟨rfl, complete⟩⟩
        | inside pair spelled guarded visited leads inner =>
          obtain ⟨steps, walked⟩ := exists_of_collect walkedKeys _ pair
          refine ⟨_, pair, steps, walked, ?_⟩
          rw [tag_mem_keySteps_iff express spelled (nested pair) walked]
          exact ⟨all, same, _, guarded, _, visited, .inr ⟨rfl, _, _, rfl, leads, inner⟩⟩

theorem tag_mem_level_root_iff {tree : Tree} (regular : tree.Regular) {own : List Step}
    (walked : level resolver scope (some scope.root) none none tree = .ok own) (ref : FieldRef)
    (tag : Tag) :
    .tag ref tag ∈ own ↔
      ∃ guards, Occurs resolver ref guards scope.root [] tree ∧ tag = scope.tag (joined guards) := by
  have unguarded : level resolver scope (some scope.root) none (joined []) tree = .ok own := walked
  rw [tag_mem_level_iff tree regular unguarded]
  constructor
  · rintro (⟨impossible, _⟩ | ⟨_, guards, same, occurs, given⟩)
    · contradiction
    · cases same
      exact ⟨guards, occurs, given⟩
  · rintro ⟨guards, occurs, given⟩
    exact .inr ⟨scope.root, guards, rfl, occurs, given⟩

end Walk

namespace Definition

variable {definition : Definition} {resolver : Resolver}

/-- The walk of a definition of regular trees tags the fields that occur in them, each with the type
and group of the tree and the condition of the guards. -/
theorem tag_mem_steps_iff {steps : List Step} (regular : definition.Regular)
    (walked : definition.steps resolver = .ok steps) (ref : FieldRef) (tag : Tag) :
    .tag ref tag ∈ steps ↔
      ∃ guards, definition.Occurs resolver tag.type tag.group ref guards ∧
        tag.condition = joined guards := by
  rw [mem_steps_iff walked]
  constructor
  · rintro (⟨_, _, impossible⟩ | ⟨type, group, tree, declared, own, walkedTree, present⟩)
    · contradiction
    · obtain ⟨guards, occurs, rfl⟩ :=
        (Walk.tag_mem_level_root_iff (regular type group tree declared) walkedTree ref tag).mp present
      exact ⟨guards, ⟨tree, declared, occurs⟩, rfl⟩
  · rintro ⟨guards, ⟨tree, declared, occurs⟩, same⟩
    obtain ⟨_, own, walkedTree⟩ := exists_level_of_steps walked declared
    refine .inr ⟨tag.type, tag.group, tree, declared, own, walkedTree, ?_⟩
    rw [Walk.tag_mem_level_root_iff (regular tag.type tag.group tree declared) walkedTree]
    refine ⟨guards, occurs, ?_⟩
    rw [← same]
    rfl

/-- The tags in the tables of a definition of regular trees are those of the occurrences of fields in
its trees: the type and group of the tree, and the condition that the guards of the occurrence join
to. -/
theorem tagged_iff_occurs {tables : Tables} (regular : definition.Regular)
    (built : definition.tables resolver = .ok tables) (ref : FieldRef) (text : String) :
    tables.Tagged ref text ↔
      ∃ type group guards, definition.Occurs resolver type group ref guards ∧
        text = (Tag.mk type group (joined guards)).text := by
  obtain ⟨steps, walked, rfl⟩ := tables_eq_ok_iff.mp built
  rw [Tables.tagged_ofSteps_iff]
  constructor
  · rintro ⟨tag, given, rfl⟩
    obtain ⟨guards, occurs, same⟩ := (tag_mem_steps_iff regular walked ref tag).mp given
    exact ⟨tag.type, tag.group, guards, occurs, by rw [← same]⟩
  · rintro ⟨type, group, guards, occurs, rfl⟩
    exact ⟨_, (tag_mem_steps_iff regular walked ref _).mpr ⟨guards, occurs, rfl⟩, rfl⟩

theorem tagged_iff_occurs_contact :
    guardedBooks.Regular ∧ ∃ tables, guardedBooks.tables bookResolver = .ok tables ∧
      tables.Tagged ⟨"Publisher", "contact"⟩
        "Book:item.normalization.get:(is_granted('STAFF')) and (is_granted('ADMIN'))" := by
  obtain ⟨tables, built⟩ : ∃ tables, guardedBooks.tables bookResolver = .ok tables :=
    Except.exists_of_isOk (by decide +kernel)
  refine ⟨regular_guardedBooks, tables, built, ?_⟩
  rw [tagged_iff_occurs regular_guardedBooks built]
  exact ⟨_, _, _, occurs_contact, by decide +kernel⟩

end Definition

end Visibility
