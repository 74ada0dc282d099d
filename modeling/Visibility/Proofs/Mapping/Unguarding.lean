import Mathlib.Data.List.Forall2
import Visibility.Proofs.Mapping.Hoisting
import Visibility.Proofs.Mapping.Outline
import Visibility.Proofs.Mapping.Rewriting

set_option autoImplicit false
set_option relaxedAutoImplicit false

/-!
Definitions without their guards.

Taking `_security` keys out of a definition, and giving the markers other expressions, changes the
conditions of tags and nothing else.  A `_security` key tags the attribute around it in the place of the
path that leads there; so the two walks take the same steps in the same order, up to conditions.
-/

namespace Visibility

mutual

/-- A tree, and the same tree with some `_security` keys taken out at any depth and other expressions
for some of its markers.  At a root there is no `_security` key to take out. -/
inductive Tree.Unguards : Tree → Tree → Prop where
  | nil : Tree.Unguards [] []
  | drop {value : Yaml} {rest again : Tree} (later : Tree.Unguards rest again) :
      Tree.Unguards ((.string Segment.securityKey, value) :: rest) again
  | reword {name : String} {value other : Yaml} {rest again : Tree}
      (hoisted : Segment.isHoisted name = true) (marks : name ≠ Segment.securityKey)
      (filled : other.HasExpression) (later : Tree.Unguards rest again) :
      Tree.Unguards ((.string name, value) :: rest) ((.string name, other) :: again)
  | keep {key value other : Yaml} {rest again : Tree} (inner : Yaml.Unguards value other)
      (later : Tree.Unguards rest again) :
      Tree.Unguards ((key, value) :: rest) ((key, other) :: again)

inductive Yaml.Unguards : Yaml → Yaml → Prop where
  | same (value : Yaml) : Yaml.Unguards value value
  | mapping {sub again : Tree} (inner : Tree.Unguards sub again) :
      Yaml.Unguards (.mapping sub) (.mapping again)
  | tagged {tag : String} {value again : Yaml} (inner : Yaml.Unguards value again) :
      Yaml.Unguards (.tagged tag value) (.tagged tag again)
  | sequence {items again : List Yaml} (each : List.Forall₂ Yaml.Unguards items again) :
      Yaml.Unguards (.sequence items) (.sequence again)

end

theorem Yaml.Unguards.scalars {value again : Yaml} : value.Unguards again →
    again.text? = value.text? ∧ again.nat? = value.nat? ∧ again.bool? = value.bool? ∧
      again.kind = value.kind
  | .same _ => ⟨rfl, rfl, rfl, rfl⟩
  | .mapping _ => ⟨rfl, rfl, rfl, rfl⟩
  | .sequence _ => ⟨rfl, rfl, rfl, rfl⟩
  | .tagged inner =>
    have ⟨sameText, sameNat, sameBool, _⟩ := inner.scalars
    ⟨sameText, sameNat, sameBool, rfl⟩

namespace Tree.Unguards

variable {tree again : Tree}

theorem refl (tree : Tree) : tree.Unguards tree := by
  induction tree with
  | nil => exact .nil
  | cons pair rest ih => exact .keep (.same pair.2) ih

theorem origin (unguards : tree.Unguards again) {key other : Yaml} (pair : (key, other) ∈ again) :
    ∃ value, (key, value) ∈ tree ∧ (value.Unguards other ∨ other.HasExpression) := by
  induction tree generalizing again with
  | nil =>
    cases unguards
    contradiction
  | cons first rest ih =>
    cases unguards with
    | drop later =>
      obtain ⟨value, present, kept⟩ := ih later pair
      exact ⟨value, List.mem_cons_of_mem _ present, kept⟩
    | reword _ _ filled later =>
      rcases List.mem_cons.mp pair with same | deeper
      · cases same
        exact ⟨_, List.mem_cons_self, .inr filled⟩
      · obtain ⟨value, present, kept⟩ := ih later deeper
        exact ⟨value, List.mem_cons_of_mem _ present, kept⟩
    | keep inner later =>
      rcases List.mem_cons.mp pair with same | deeper
      · cases same
        exact ⟨_, List.mem_cons_self, .inl inner⟩
      · obtain ⟨value, present, kept⟩ := ih later deeper
        exact ⟨value, List.mem_cons_of_mem _ present, kept⟩

theorem exists_mem (unguards : tree.Unguards again) {name : String} {value : Yaml}
    (pair : (.string name, value) ∈ tree) (marks : name ≠ Segment.securityKey) :
    ∃ other, (.string name, other) ∈ again := by
  induction tree generalizing again with
  | nil => contradiction
  | cons first rest ih =>
    have deeper {later : Tree} (unguardsLater : Tree.Unguards rest later)
        (present : (.string name, value) ∈ rest) : ∃ other, (.string name, other) ∈ later :=
      ih unguardsLater present
    cases unguards with
    | drop later =>
      rcases List.mem_cons.mp pair with same | present
      · cases same
        contradiction
      · exact deeper later present
    | reword _ _ _ later =>
      rcases List.mem_cons.mp pair with same | present
      · cases same
        exact ⟨_, List.mem_cons_self⟩
      · obtain ⟨other, found⟩ := deeper later present
        exact ⟨other, List.mem_cons_of_mem _ found⟩
    | keep _ later =>
      rcases List.mem_cons.mp pair with same | present
      · cases same
        exact ⟨_, List.mem_cons_self⟩
      · obtain ⟨other, found⟩ := deeper later present
        exact ⟨other, List.mem_cons_of_mem _ found⟩

theorem keys_sublist (unguards : tree.Unguards again) :
    (again.map fun pair => pair.1.text?).Sublist (tree.map fun pair => pair.1.text?) := by
  induction tree generalizing again with
  | nil =>
    cases unguards
    exact .slnil
  | cons first rest ih =>
    cases unguards with
    | drop later => exact (ih later).cons _
    | reword _ _ _ later => exact (ih later).cons_cons _
    | keep _ later => exact (ih later).cons_cons _

theorem regularKeys (unguards : tree.Unguards again) (regular : tree.RegularKeys) :
    again.RegularKeys where
  distinct := unguards.keys_sublist.nodup regular.distinct
  spelled key other pair := by
    obtain ⟨value, present, -⟩ := unguards.origin pair
    exact regular.spelled key value present

end Tree.Unguards

namespace Walk

variable {resolver : Resolver} {scope : Scope} {owner : Option String} {parent : Option FieldRef}
  {inherited : Option String} {after : Conditions} {own steps : List Step}

theorem exists_hoisted_of_unguards {tree again : Tree} (unguards : tree.Unguards again)
    (regular : tree.RegularKeys)
    (applied : hoisted scope parent inherited tree = .ok (after, own)) (other : Option String) :
    ∃ outcome, hoisted scope parent other again = .ok outcome := by
  have filled := (exists_hoisted_iff regular.named).mp ⟨_, applied⟩
  rw [exists_hoisted_iff (unguards.regularKeys regular).named]
  intro name value pair hoisted
  obtain ⟨before, present, changed⟩ := unguards.origin pair
  obtain ⟨expression, around⟩ := filled name before present hoisted
  refine ⟨?_, around⟩
  rcases changed with inner | reworded
  · obtain ⟨text, read, filled⟩ := expression
    exact ⟨text, inner.scalars.1.trans read, filled⟩
  · exact reworded

def guardSteps (scope : Scope) (parent : Option FieldRef) (tree : Tree) : List Step :=
  if guardsItself (.mapping tree) then
    parent.toList.flatMap fun ref => [.tag ref (scope.tag none), .catchAll (scope.tag none)]
  else []

theorem cut_hoisted {tree : Tree} (regular : tree.RegularKeys)
    (applied : hoisted scope parent inherited tree = .ok (after, own)) :
    own.map Step.cut = guardSteps scope parent tree := by
  rw [← joined_toList inherited] at applied
  obtain ⟨-, given⟩ := hoisted_eq_ok regular.distinct applied
  rw [guardSteps, guardsItself_mapping]
  cases present : tree.valueAt? Segment.securityKey with
  | none =>
    rw [present] at given
    subst given
    rfl
  | some value =>
    rw [present] at given
    obtain ⟨ref, expression, rfl, -, rfl⟩ := given
    rfl

/-- One walk succeeds where another does, with steps that differ in conditions only. -/
def Mirrors (first second : Except MappingError (List Step)) : Prop :=
  ∀ steps, first = .ok steps →
    ∃ again, second = .ok again ∧ again.map Step.cut = steps.map Step.cut

theorem Mirrors.of_eq {first second : Except MappingError (List Step)} (same : second = first) :
    Mirrors first second := by
  intro steps walked
  exact ⟨steps, same.trans walked, rfl⟩

theorem Mirrors.collect {α : Type} {f g : α → Except MappingError (List Step)} {parts others : List α}
    (mirrors : List.Forall₂ (fun part other => Mirrors (f part) (g other)) parts others) :
    Mirrors (collect f parts) (collect g others) := by
  induction mirrors with
  | nil => exact .of_eq rfl
  | cons first _ ih =>
    intro steps walked
    obtain ⟨own, more, walkedFirst, walkedRest, rfl⟩ := collect_cons_eq_ok_iff.mp walked
    obtain ⟨ownAgain, walkedAgain, sameOwn⟩ := first own walkedFirst
    obtain ⟨moreAgain, walkedRestAgain, sameMore⟩ := ih more walkedRest
    refine ⟨ownAgain ++ moreAgain, ?_, ?_⟩
    · exact collect_cons_eq_ok_iff.mpr ⟨ownAgain, moreAgain, walkedAgain, walkedRestAgain, rfl⟩
    · rw [List.map_append, List.map_append, sameOwn, sameMore]

theorem keySteps_limit_eq {name : String} {value other : Yaml} (inner : value.Unguards other)
    (directive : Segment.IsDirective name) (free : Segment.isHoisted name = false)
    (conditions again : Conditions) :
    keySteps resolver scope owner parent again (.string name, other) =
      keySteps resolver scope owner parent conditions (.string name, value) := by
  obtain ⟨text, nat, bool, kind⟩ := inner.scalars
  rcases directive.classify_of_not_isHoisted free with classified | classified | classified
  all_goals
    simp only [keySteps, key_of_not_isHoisted free, directive.1, follow, classified, text, nat, bool,
      kind]
  · cases value.nat? with
    | none => rfl
    | some depth =>
      by_cases small : depth < 0x100000000
      · simp only [if_pos small]
        cases parent <;> rfl
      · simp only [if_neg small]
        rfl
  · cases value.text? with
    | none => rfl
    | some title => cases parent <;> rfl
  · cases value.bool? with
    | none => rfl
    | some flag => cases parent <;> rfl

/-- A visited field has its entry and its tag first, cut back: the tag of the path, or in its place the
one of the `_security` key below. -/
theorem cut_fieldSteps (scope : Scope) (ref : FieldRef) (condition : Option String) (guarded : Bool) :
    (fieldSteps scope ref condition guarded).map Step.cut ++
      (if guarded then [.tag ref (scope.tag none), .catchAll (scope.tag none)] else []) =
        [.entry ref, .tag ref (scope.tag none), .catchAll (scope.tag none)] := by
  cases guarded <;> rfl

/-- Levels whose walks give the same steps, cut back, behind those of their own `_security` keys. -/
def MirrorsLevel (resolver : Resolver) (scope : Scope) (tree again : Tree) : Prop :=
  ∀ owner parent inherited other steps,
    level resolver scope owner parent inherited tree = .ok steps →
    ∃ stepsAgain core, level resolver scope owner parent other again = .ok stepsAgain ∧
      steps.map Step.cut = guardSteps scope parent tree ++ core ∧
      stepsAgain.map Step.cut = guardSteps scope parent again ++ core

theorem mirrors_visitSteps_mapping {name : String} {sub again : Tree}
    (deeper : MirrorsLevel resolver scope sub again) (condition conditionAgain : Option String)
    (ref : FieldRef) :
    Mirrors (visitSteps resolver scope name (.mapping sub) (inside resolver scope (.mapping sub))
        condition (ref, true))
      (visitSteps resolver scope name (.mapping again) (inside resolver scope (.mapping again))
        conditionAgain (ref, true)) := by
  intro steps walked
  obtain ⟨more, descended, rfl⟩ := visitSteps_eq_ok_iff.mp walked
  rw [if_pos rfl, descend_mapping] at descended
  obtain ⟨moreAgain, core, walkedAgain, cut, cutAgain⟩ :=
    deeper _ (some ref) condition conditionAgain more descended
  refine ⟨_, visitSteps_eq_ok_iff.mpr ⟨moreAgain, ?_, rfl⟩, ?_⟩
  · rw [if_pos rfl, descend_mapping]
    exact walkedAgain
  · have whole := cut_fieldSteps scope ref condition (guardsItself (.mapping sub))
    have wholeAgain := cut_fieldSteps scope ref conditionAgain (guardsItself (.mapping again))
    simp only [Bool.true_and, List.map_append, cut, cutAgain, guardSteps, Option.toList_some,
      List.flatMap_singleton, ← List.append_assoc, whole, wholeAgain]

theorem mirrors_visitSteps {name : String} {value other : Yaml} (inner : value.Unguards other)
    (deeper : ∀ sub again, value = .mapping sub → Tree.Unguards sub again →
      MirrorsLevel resolver scope sub again)
    (condition conditionAgain : Option String) (visit : FieldRef × Bool) :
    Mirrors (visitSteps resolver scope name value (inside resolver scope value) condition visit)
      (visitSteps resolver scope name other (inside resolver scope other) conditionAgain visit) := by
  obtain ⟨ref, last⟩ := visit
  cases last with
  | false =>
    intro steps walked
    obtain ⟨more, descended, rfl⟩ := visitSteps_eq_ok_iff.mp walked
    have passed : (fieldSteps scope ref conditionAgain false).map Step.cut =
        (fieldSteps scope ref condition false).map Step.cut := rfl
    cases descended
    refine ⟨_, visitSteps_eq_ok_iff.mpr ⟨[], rfl, rfl⟩, ?_⟩
    simp only [Bool.false_and, List.map_append, passed]
  | true =>
    cases inner with
    | mapping unguards =>
      exact mirrors_visitSteps_mapping (deeper _ _ rfl unguards) condition conditionAgain ref
    | same =>
      cases value with
      | mapping sub =>
        exact mirrors_visitSteps_mapping (deeper sub sub rfl (.refl sub)) condition conditionAgain ref
      | null =>
        intro steps walked
        obtain ⟨more, descended, rfl⟩ := visitSteps_eq_ok_iff.mp walked
        cases descended
        exact ⟨_, visitSteps_eq_ok_iff.mpr ⟨[], rfl, rfl⟩, rfl⟩
      | _ =>
        -- Only a level or nothing stands below a path.
        intro steps walked
        obtain ⟨more, descended, -⟩ := visitSteps_eq_ok_iff.mp walked
        cases descended
    | tagged =>
      intro steps walked
      obtain ⟨more, descended, -⟩ := visitSteps_eq_ok_iff.mp walked
      cases descended
    | sequence =>
      intro steps walked
      obtain ⟨more, descended, -⟩ := visitSteps_eq_ok_iff.mp walked
      cases descended

theorem mirrors_keySteps {tree again : Tree} (unguards : tree.Unguards again)
    (regular : tree.RegularKeys) {other : Option String} {conditions : Conditions}
    {ownAgain : List Step}
    (applied : hoisted scope parent inherited tree = .ok (after, own))
    (appliedAgain : hoisted scope parent other again = .ok (conditions, ownAgain))
    {key value changed : Yaml} (pair : (key, value) ∈ tree) (inner : value.Unguards changed)
    (deeper : ∀ sub again, value = .mapping sub → Tree.Unguards sub again →
      MirrorsLevel resolver scope sub again) :
    Mirrors (keySteps resolver scope owner parent after (key, value))
      (keySteps resolver scope owner parent conditions (key, changed)) := by
  obtain ⟨name, rfl, directive | ⟨marker?, fields, spelled⟩⟩ := regular.spelled key value pair
  · cases hoisted : Segment.isHoisted name with
    | true =>
      simp only [keySteps, key_of_isHoisted hoisted]
      exact .of_eq rfl
    | false => exact .of_eq (keySteps_limit_eq inner directive hoisted after conditions)
  · cases owner with
    | none =>
      simp only [keySteps, key_of_spelled_none spelled]
      exact .of_eq rfl
    | some type =>
      intro steps walked
      simp only [keySteps, key_of_spelled spelled, Except.map_eq_ok_iff, Except.bind_eq_ok_iff,
        Except.pure_eq_ok_iff] at walked
      obtain ⟨_, ⟨condition, marked, _, visited, rfl⟩, rfl⟩ := walked
      have defined := (exists_ofMarker_iff regular applied spelled).mp ⟨condition, marked⟩
      -- the keys that define conditions for markers are kept
      have definedAgain : ∀ marker ∈ marker?,
          ∃ value, (.string (Segment.securityKey ++ marker), value) ∈ again := by
        intro marker used
        obtain ⟨expression, present⟩ := defined marker used
        have inPath : marker ∈ Segment.path name := by
          rw [spelled.path]
          exact List.mem_append_left _ (by simpa using used)
        have isMarker := spelled.marked marker used
        exact unguards.exists_mem present
          (isMarker.isHoisted (Segment.not_dot_of_mem_path inPath)).2
      obtain ⟨conditionAgain, markedAgain⟩ :=
        (exists_ofMarker_iff (unguards.regularKeys regular) appliedAgain spelled).mpr definedAgain
      have mirrors : Mirrors
          (collect (visitSteps resolver scope name value (inside resolver scope value) condition)
            (resolver.visits type fields))
          (collect (visitSteps resolver scope name changed (inside resolver scope changed)
            conditionAgain) (resolver.visits type fields)) :=
        .collect (List.forall₂_same.mpr fun visit _ =>
          mirrors_visitSteps inner deeper condition conditionAgain visit)
      obtain ⟨stepsAgain, visitedAgain, same⟩ := mirrors _ visited
      refine ⟨stepsAgain, ?_, same⟩
      rw [keySteps, key_of_spelled spelled, markedAgain, Except.ok_bind, visitedAgain]
      rfl

theorem mirrors_collect {tree again : Tree} (unguards : tree.Unguards again)
    {conditions : Conditions}
    (kept : ∀ key value changed, (key, value) ∈ tree → value.Unguards changed →
      Mirrors (keySteps resolver scope owner parent after (key, value))
        (keySteps resolver scope owner parent conditions (key, changed))) :
    Mirrors (collect (keySteps resolver scope owner parent after) tree)
      (collect (keySteps resolver scope owner parent conditions) again) := by
  induction tree generalizing again with
  | nil =>
    cases unguards
    exact .of_eq rfl
  | cons pair rest ih =>
    have deeper {later : Tree} (unguardsLater : Tree.Unguards rest later) :
        Mirrors (collect (keySteps resolver scope owner parent after) rest)
          (collect (keySteps resolver scope owner parent conditions) later) :=
      ih unguardsLater fun key value changed present =>
        kept key value changed (List.mem_cons_of_mem _ present)
    intro steps walked
    obtain ⟨first, more, walkedFirst, walkedRest, rfl⟩ := collect_cons_eq_ok_iff.mp walked
    cases unguards with
    | drop later =>
      have security : Segment.isHoisted Segment.securityKey = true := by decide +kernel
      rw [keySteps, key_of_isHoisted security] at walkedFirst
      cases walkedFirst
      exact deeper later more walkedRest
    | reword hoisted _ _ later =>
      rw [keySteps, key_of_isHoisted hoisted] at walkedFirst
      cases walkedFirst
      obtain ⟨moreAgain, walkedAgain, same⟩ := deeper later more walkedRest
      refine ⟨[] ++ moreAgain, ?_, same⟩
      refine collect_cons_eq_ok_iff.mpr ⟨[], moreAgain, ?_, walkedAgain, rfl⟩
      rw [keySteps, key_of_isHoisted hoisted]
      rfl
    | keep inner later =>
      obtain ⟨firstAgain, walkedKey, sameFirst⟩ :=
        kept _ _ _ List.mem_cons_self inner first walkedFirst
      obtain ⟨moreAgain, walkedAgain, same⟩ := deeper later more walkedRest
      refine ⟨firstAgain ++ moreAgain, ?_, ?_⟩
      · exact collect_cons_eq_ok_iff.mpr ⟨firstAgain, moreAgain, walkedKey, walkedAgain, rfl⟩
      · rw [List.map_append, List.map_append, sameFirst, same]

theorem mirrorsLevel_of_unguards (tree : Tree) (regular : tree.Regular) {again : Tree}
    (unguards : tree.Unguards again) : MirrorsLevel resolver scope tree again := by
  induction tree using Tree.induct generalizing again with
  | step tree ih =>
    intro owner parent inherited other steps walked
    obtain ⟨after, own, more, applied, walkedKeys, rfl⟩ := level_eq_ok_iff.mp walked
    have regularAgain := unguards.regularKeys regular.keys
    obtain ⟨⟨conditions, ownAgain⟩, appliedAgain⟩ :=
      exists_hoisted_of_unguards unguards regular.keys applied other
    rw [keys_of_regular regular.keys.spelled] at walkedKeys
    have mirrors : Mirrors (collect (keySteps resolver scope owner parent after) tree)
        (collect (keySteps resolver scope owner parent conditions) again) := by
      refine mirrors_collect unguards fun key value changed pair inner => ?_
      refine mirrors_keySteps unguards regular.keys applied appliedAgain pair inner ?_
      rintro sub subAgain rfl unguardsSub
      exact ih key sub pair (regular.inside pair) unguardsSub
    obtain ⟨moreAgain, walkedAgain, same⟩ := mirrors more walkedKeys
    refine ⟨ownAgain ++ moreAgain, more.map Step.cut, ?_, ?_, ?_⟩
    · refine level_eq_ok_iff.mpr ⟨conditions, ownAgain, moreAgain, appliedAgain, ?_, rfl⟩
      rw [keys_of_regular regularAgain.spelled]
      exact walkedAgain
    · rw [List.map_append, cut_hoisted regular.keys applied]
    · rw [List.map_append, cut_hoisted regularAgain appliedAgain, same]

theorem ne_nil_of_unguards {tree again : Tree} (regular : tree.RegularKeys) (filled : tree ≠ [])
    (unguards : tree.Unguards again)
    (walked : level resolver scope owner none inherited tree = .ok steps) : again ≠ [] := by
  cases unguards with
  | nil => contradiction
  | drop later =>
    obtain ⟨after, own, more, applied, -, -⟩ := level_eq_ok_iff.mp walked
    have security : Segment.isHoisted Segment.securityKey = true := by decide +kernel
    have around := ((exists_hoisted_iff regular.named).mp ⟨_, applied⟩ _ _ List.mem_cons_self
      security).2 rfl
    contradiction
  | reword => exact List.cons_ne_nil _ _
  | keep => exact List.cons_ne_nil _ _

end Walk

namespace Definition

variable {definition again : Definition} {resolver : Resolver}

def Gives (definition : Definition) (resolver : Resolver) (ref : FieldRef) (tag : Tag) : Prop :=
  ∃ steps, definition.steps resolver = .ok steps ∧ .tag ref tag ∈ steps

def GivesType (definition : Definition) (resolver : Resolver) (tag : Tag) : Prop :=
  ∃ steps, definition.steps resolver = .ok steps ∧ .catchAll tag ∈ steps

/-- Tables whose tags are those that a definition gives, written out. -/
structure WrittenTo (definition : Definition) (resolver : Resolver) (tables : Tables) : Prop where
  fields : ∀ ref text, tables.Tagged ref text ↔
    ∃ tag, definition.Gives resolver ref tag ∧ tag.text = text
  types : ∀ type text, tables.Lists type text ↔
    ∃ tag, definition.GivesType resolver tag ∧ tag.type = type ∧ tag.text = text

theorem writtenTo_tables {tables : Tables} (built : definition.tables resolver = .ok tables) :
    definition.WrittenTo resolver tables := by
  obtain ⟨steps, walked, rfl⟩ := tables_eq_ok_iff.mp built
  constructor
  · intro ref text
    simp only [Tables.tagged_ofSteps_iff, Gives, walked, Except.ok.injEq, exists_eq_left']
  · intro type text
    simp only [Tables.lists_ofSteps_iff, GivesType, walked, Except.ok.injEq, exists_eq_left']

theorem mirrors_steps (regular : definition.Regular)
    (unguards : definition.Relates Tree.Unguards again) :
    Walk.Mirrors (definition.steps resolver) (again.steps resolver) := by
  have within : List.Forall₂
      (fun part other => part ∈ definition.parts ∧ part.Relates Tree.Unguards other)
      definition.parts again.parts :=
    (List.forall₂_and_left _ _).mpr ⟨fun _ present => present, unguards.parts⟩
  rw [steps_eq_collect, steps_eq_collect]
  apply Walk.Mirrors.collect
  refine within.imp ?_
  rintro part other ⟨present, relates⟩
  cases relates with
  | table type => exact .of_eq rfl
  | tree scope alike =>
    intro steps walked
    have regularTree := regular scope.root scope.group _ (tree_mem_parts_iff.mp present)
    rw [Walk.Part.steps] at walked
    split at walked
    · contradiction
    · next filled =>
      obtain ⟨stepsAgain, core, walkedAgain, same, sameAgain⟩ :=
        Walk.mirrorsLevel_of_unguards _ regularTree alike _ _ _ none _ walked
      have filledAgain := Walk.ne_nil_of_unguards regularTree.keys (by simpa using filled) alike walked
      refine ⟨stepsAgain, ?_, ?_⟩
      · rw [Walk.Part.steps, if_neg (by simpa using filledAgain)]
        exact walkedAgain
      · -- a root has no field around it that its own security could tag
        have root (tree : Tree) : Walk.guardSteps scope none tree = [] := by
          unfold Walk.guardSteps
          split <;> rfl
        rw [same, sameAgain, root, root]

/-- A definition whose guards are taken out, and whose markers get other expressions, has tables where
it had, of the same outline, with the same tags when these are cut back to their types and groups. -/
theorem exists_tables_of_unguards (regular : definition.Regular)
    (unguards : definition.Relates Tree.Unguards again) {tables : Tables}
    (built : definition.tables resolver = .ok tables) :
    ∃ tablesAgain, again.tables resolver = .ok tablesAgain ∧
      tablesAgain.outline = tables.outline ∧
      definition.WrittenTo resolver tables ∧ again.WrittenTo resolver tablesAgain ∧
      (∀ ref cut, (∃ tag, again.Gives resolver ref tag ∧ tag.cut = cut) ↔
        ∃ tag, definition.Gives resolver ref tag ∧ tag.cut = cut) ∧
      (∀ cut, (∃ tag, again.GivesType resolver tag ∧ tag.cut = cut) ↔
        ∃ tag, definition.GivesType resolver tag ∧ tag.cut = cut) := by
  obtain ⟨steps, walked, rfl⟩ := tables_eq_ok_iff.mp built
  obtain ⟨stepsAgain, walkedAgain, same⟩ := mirrors_steps regular unguards steps walked
  have builtAgain : again.tables resolver = .ok (Tables.ofSteps stepsAgain) :=
    tables_eq_ok_iff.mpr ⟨stepsAgain, walkedAgain, rfl⟩
  refine ⟨_, builtAgain, Tables.outline_eq_of_cut same, writtenTo_tables built,
    writtenTo_tables builtAgain, ?_, ?_⟩
  · intro ref cut
    simp only [Gives, walked, walkedAgain, Except.ok.injEq, exists_eq_left']
    exact exists_tag_cut_iff same ref cut
  · intro cut
    simp only [GivesType, walked, walkedAgain, Except.ok.injEq, exists_eq_left']
    exact exists_catchAll_cut_iff same cut

def openedBooks : Definition :=
  Definition.empty.push "Book" "item.normalization.get"
    [(.string "publisher", .mapping
      [(.string "_security_admin", .string "is_granted('OWNER')"),
        (.string "_admin.contact", .null)])]

theorem exists_tables_of_unguards_guardedBooks :
    guardedBooks.Regular ∧ guardedBooks.Relates Tree.Unguards openedBooks ∧
      ∃ tables tablesAgain, guardedBooks.tables bookResolver = .ok tables ∧
        openedBooks.tables bookResolver = .ok tablesAgain ∧
        tablesAgain.outline = tables.outline := by
  have filled : (Yaml.string "is_granted('OWNER')").HasExpression :=
    ⟨"is_granted('OWNER')", rfl, by decide +kernel⟩
  have unguards : Tree.Unguards guardedTree
      [(.string "publisher", .mapping
        [(.string "_security_admin", .string "is_granted('OWNER')"),
          (.string "_admin.contact", .null)])] :=
    .keep (.mapping (.drop (.reword (by decide +kernel) (by decide +kernel) filled
      (.keep (.same .null) .nil)))) .nil
  have relates : guardedBooks.Relates Tree.Unguards openedBooks :=
    .cons ⟨rfl, .cons ⟨rfl, .cons unguards .nil⟩ .nil⟩ .nil
  obtain ⟨tables, built⟩ := exists_tables_guardedBooks
  obtain ⟨tablesAgain, builtAgain, outline, -⟩ :=
    exists_tables_of_unguards regular_guardedBooks relates built
  exact ⟨regular_guardedBooks, relates, tables, tablesAgain, built, builtAgain, outline⟩

end Definition

end Visibility
