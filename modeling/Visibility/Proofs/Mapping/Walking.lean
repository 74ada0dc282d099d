import Mathlib.Control.Monad.Basic
import Visibility.Mapping.Walk
import Visibility.Proofs.Mapping.Filling
import Visibility.Proofs.Mapping.Occurrence

set_option autoImplicit false
set_option relaxedAutoImplicit false

/-!
What a walk that succeeds has done, function by function.
-/

namespace Visibility

theorem Except.bind_eq_ok_iff {ε α β : Type} {first : Except ε α} {next : α → Except ε β} {b : β} :
    first >>= next = .ok b ↔ ∃ a, first = .ok a ∧ next a = .ok b := by
  cases first with
  | error error => simp [Bind.bind, Except.bind]
  | ok a => simp [Bind.bind, Except.bind]

theorem Except.pure_eq_ok_iff {ε α : Type} {a b : α} :
    (pure a : Except ε α) = .ok b ↔ a = b := by
  simp [Pure.pure, Except.pure]

theorem Except.exists_of_isOk {ε α : Type} {first : Except ε α} (came : first.isOk = true) :
    ∃ a, first = .ok a := by
  cases first with
  | error error => contradiction
  | ok a => exact ⟨a, rfl⟩

theorem Except.toOption_eq_some_iff {ε α : Type} {first : Except ε α} {a : α} :
    first.toOption = some a ↔ first = .ok a := by
  cases first with
  | error error => simp [Except.toOption]
  | ok b => simp [Except.toOption]

theorem Except.map_eq_ok_iff {ε α β : Type} {first : Except ε α} {f : α → β} {b : β} :
    first.map f = .ok b ↔ ∃ a, first = .ok a ∧ f a = b := by
  cases first with
  | error error => simp [Except.map]
  | ok a => simp [Except.map]

theorem Except.ok_bind {ε α β : Type} (a : α) (next : α → Except ε β) :
    (Except.ok a : Except ε α) >>= next = next a := rfl

namespace Scope

variable {scope : Scope}

theorem keyName_eq_ok_iff {key : Yaml} {name : String} :
    scope.keyName key = .ok name ↔ key.text? = some name := by
  unfold keyName
  cases key.text? with
  | none => simp [malformed]
  | some text => simp

theorem expression_eq_ok_iff {directive expression : String} {value : Yaml} :
    scope.expression directive value = .ok expression ↔
      value.text?.map Text.trim = some expression ∧ expression.isEmpty = false := by
  unfold Scope.expression
  cases value.text?.map Text.trim with
  | none => simp [malformed]
  | some text =>
    simp only [Option.some.injEq]
    by_cases blank : text.isEmpty
    · rw [if_pos blank]
      constructor
      · nofun
      · rintro ⟨rfl, filled⟩
        rw [blank] at filled
        contradiction
    · rw [if_neg blank]
      constructor
      · intro same
        cases same
        exact ⟨rfl, Bool.eq_false_iff.mpr blank⟩
      · rintro ⟨rfl, _⟩
        rfl

theorem enclosing_eq_ok_iff {parent : Option FieldRef} {directive : String} {ref : FieldRef} :
    scope.enclosing parent directive = .ok ref ↔ parent = some ref := by
  cases parent with
  | none => simp [enclosing]
  | some found => simp [enclosing]

end Scope

theorem Conditions.ofMarker_eq_ok_iff {conditions : Conditions} {scope : Scope}
    {marker? condition : Option String} :
    conditions.ofMarker scope marker? = .ok condition ↔
      match marker? with
      | none => conditions.inherited = condition
      | some marker => ∃ found, conditions.named.get? marker = some found ∧ some found = condition := by
  cases marker? with
  | none => simp [ofMarker]
  | some marker =>
    simp only [ofMarker]
    cases conditions.named.get? marker with
    | none => simp
    | some found => simp

def Step.IsLimit : Step → Prop
  | .maxDepth _ _ | .serializedName _ _ | .ignore _ _ => True
  | .table _ | .entry _ | .tag _ _ | .catchAll _ => False

namespace Walk

variable {resolver : Resolver} {scope : Scope}

theorem security_eq_ok_iff {parent : Option FieldRef} {value : Yaml}
    {conditions : Conditions} {outcome : Conditions × List Step} :
    security scope parent value conditions = .ok outcome ↔
      ∃ expression ref, scope.expression Segment.securityKey value = .ok expression ∧
        parent = some ref ∧
        outcome =
          ({ conditions with inherited := some (conjoin conditions.inherited expression) },
            [.tag ref (scope.tag (some (conjoin conditions.inherited expression))),
              .catchAll (scope.tag (some (conjoin conditions.inherited expression)))]) := by
  simp only [security, Except.bind_eq_ok_iff, Scope.enclosing_eq_ok_iff, Except.pure_eq_ok_iff]
  constructor
  · rintro ⟨expression, read, ref, enclosed, rfl⟩
    exact ⟨expression, ref, read, enclosed, rfl⟩
  · rintro ⟨expression, ref, read, enclosed, rfl⟩
    exact ⟨expression, read, ref, enclosed, rfl⟩

theorem keys_cons_eq_ok_iff {name value : Yaml} {rest : Tree} {owner : Option String}
    {parent : Option FieldRef} {conditions : Conditions} {steps : List Step} :
    keys resolver scope ((name, value) :: rest) owner parent conditions = .ok steps ↔
      ∃ next first more,
        key resolver scope owner parent conditions name value (inside resolver scope value) =
          .ok (next, first) ∧
        keys resolver scope rest owner parent next = .ok more ∧ steps = first ++ more := by
  simp only [keys, Except.bind_eq_ok_iff, Except.pure_eq_ok_iff, Prod.exists]
  constructor
  · rintro ⟨next, first, walked, more, walkedRest, rfl⟩
    exact ⟨next, first, more, walked, walkedRest, rfl⟩
  · rintro ⟨next, first, more, walked, walkedRest, rfl⟩
    exact ⟨next, first, walked, more, walkedRest, rfl⟩

theorem level_eq_ok_iff {owner : Option String} {parent : Option FieldRef}
    {inherited : Option String} {tree : Tree} {steps : List Step} :
    level resolver scope owner parent inherited tree = .ok steps ↔
      ∃ conditions own more,
        hoisted scope parent inherited tree = .ok (conditions, own) ∧
        keys resolver scope tree owner parent conditions = .ok more ∧ steps = own ++ more := by
  simp only [level, Except.bind_eq_ok_iff, Except.pure_eq_ok_iff, Prod.exists]
  constructor
  · rintro ⟨conditions, own, walked, more, walkedKeys, rfl⟩
    exact ⟨conditions, own, more, walked, walkedKeys, rfl⟩
  · rintro ⟨conditions, own, more, walked, walkedKeys, rfl⟩
    exact ⟨conditions, own, walked, more, walkedKeys, rfl⟩

theorem inside_mapping (pairs : Tree) (owner condition : Option String) (ref : FieldRef) :
    inside resolver scope (.mapping pairs) owner condition ref =
      level resolver scope owner (some ref) condition pairs := by
  simp only [inside, level]

theorem descend_mapping (key : String) (sub : Tree) (owner condition : Option String)
    (ref : FieldRef) :
    descend scope key (.mapping sub) (inside resolver scope (.mapping sub)) owner condition ref =
      level resolver scope owner (some ref) condition sub := by
  cases sub with
  | nil => rfl
  | cons pair rest =>
    rw [descend, inside_mapping]
    rfl

section Hoisted

variable {parent : Option FieldRef} {rest tree : Tree} {key value : Yaml}
  {conditions after : Conditions} {outcome : Conditions × List Step}

theorem ownSecurity_cons_eq_ok_iff :
    ownSecurity scope parent conditions ((key, value) :: rest) = .ok outcome ↔
      ∃ name, key.text? = some name ∧
        if name = Segment.securityKey then
          ∃ own more, security scope parent value conditions = .ok own ∧
            ownSecurity scope parent own.1 rest = .ok more ∧
            outcome = (more.1, own.2 ++ more.2)
        else ownSecurity scope parent conditions rest = .ok outcome := by
  simp only [ownSecurity, Except.bind_eq_ok_iff, Scope.keyName_eq_ok_iff]
  refine exists_congr fun name => and_congr_right fun _ => ?_
  split
  · simp only [Except.bind_eq_ok_iff, Except.pure_eq_ok_iff, Prod.exists]
    constructor
    · rintro ⟨next, own, walked, last, more, walkedRest, rfl⟩
      exact ⟨next, own, last, more, walked, walkedRest, rfl⟩
    · rintro ⟨next, own, last, more, walked, walkedRest, rfl⟩
      exact ⟨next, own, walked, last, more, walkedRest, rfl⟩
  · rfl

theorem ownSecurity_of_absent (absent : Tree.valueAt? tree Segment.securityKey = none)
    (walked : ownSecurity scope parent conditions tree = .ok outcome) :
    outcome = (conditions, []) := by
  induction tree with
  | nil =>
    cases walked
    rfl
  | cons pair rest ih =>
    obtain ⟨key, value⟩ := pair
    rw [Tree.valueAt?_cons] at absent
    obtain ⟨name, named, walked⟩ := ownSecurity_cons_eq_ok_iff.mp walked
    split at absent
    · contradiction
    · next differ =>
      have other : name ≠ Segment.securityKey := fun same => differ (same ▸ named)
      rw [if_neg other] at walked
      exact ih absent walked

theorem ownSecurity_of_present (distinct : (tree.map fun pair => pair.1.text?).Nodup)
    (present : Tree.valueAt? tree Segment.securityKey = some value)
    (walked : ownSecurity scope parent conditions tree = .ok outcome) :
    security scope parent value conditions = .ok outcome := by
  induction tree with
  | nil => contradiction
  | cons pair rest ih =>
    obtain ⟨key, first⟩ := pair
    rw [Tree.valueAt?_cons] at present
    rw [List.map_cons, List.nodup_cons] at distinct
    obtain ⟨name, named, walked⟩ := ownSecurity_cons_eq_ok_iff.mp walked
    split at present
    · next here =>
      cases present
      have same : name = Segment.securityKey := Option.some.inj (named.symm.trans here)
      rw [if_pos same] at walked
      obtain ⟨own, more, applied, walkedRest, rfl⟩ := walked
      have absent : Tree.valueAt? rest Segment.securityKey = none := by
        refine Tree.valueAt?_eq_none_iff.mpr fun pair later twice => distinct.1 ?_
        rw [here, ← twice]
        exact List.mem_map_of_mem later
      rw [ownSecurity_of_absent absent walkedRest, List.append_nil]
      exact applied
    · next differ =>
      have other : name ≠ Segment.securityKey := fun same => differ (same ▸ named)
      rw [if_neg other] at walked
      exact ih distinct.2 present walked

theorem namedSecurity_cons_eq_ok_iff :
    namedSecurity scope conditions ((key, value) :: rest) = .ok after ↔
      ∃ name, key.text? = some name ∧
        if Segment.isHoisted name ∧ name ≠ Segment.securityKey then
          ∃ expression, scope.expression name value = .ok expression ∧
            namedSecurity scope (conditions.define (Segment.markerOf name) expression) rest =
              .ok after
        else namedSecurity scope conditions rest = .ok after := by
  simp only [namedSecurity, Except.bind_eq_ok_iff, Scope.keyName_eq_ok_iff]
  refine exists_congr fun name => and_congr_right fun _ => ?_
  split
  · rw [Except.bind_eq_ok_iff]
  · rfl

theorem inherited_namedSecurity (walked : namedSecurity scope conditions tree = .ok after) :
    after.inherited = conditions.inherited := by
  induction tree generalizing conditions with
  | nil =>
    cases walked
    rfl
  | cons pair rest ih =>
    obtain ⟨name, _, walked⟩ := namedSecurity_cons_eq_ok_iff.mp walked
    split at walked
    · obtain ⟨expression, _, walkedRest⟩ := walked
      have kept := ih walkedRest
      exact kept
    · exact ih walked

theorem named_namedSecurity {marker : String}
    (hoisted : Segment.isHoisted (Segment.securityKey ++ marker) = true)
    (named : Segment.securityKey ++ marker ≠ Segment.securityKey)
    (distinct : (tree.map fun pair => pair.1.text?).Nodup)
    (walked : namedSecurity scope conditions tree = .ok after) :
    after.named.get? marker =
      ((Tree.expressionAt? tree (Segment.securityKey ++ marker)).map
        (conjoin conditions.inherited)).or (conditions.named.get? marker) := by
  induction tree generalizing conditions with
  | nil =>
    cases walked
    rfl
  | cons pair rest ih =>
    obtain ⟨key, value⟩ := pair
    rw [List.map_cons, List.nodup_cons] at distinct
    obtain ⟨name, read, walked⟩ := namedSecurity_cons_eq_ok_iff.mp walked
    have spelled := Tree.valueAt?_cons key value rest (Segment.securityKey ++ marker)
    by_cases here : name = Segment.securityKey ++ marker
    · rw [if_pos (here ▸ ⟨hoisted, named⟩)] at walked
      obtain ⟨expression, given, walkedRest⟩ := walked
      have absent : Tree.valueAt? rest (Segment.securityKey ++ marker) = none := by
        refine Tree.valueAt?_eq_none_iff.mpr fun pair later twice => distinct.1 ?_
        rw [read, here, ← twice]
        exact List.mem_map_of_mem later
      have found : Tree.expressionAt? ((key, value) :: rest) (Segment.securityKey ++ marker) =
          some expression := by
        rw [Tree.expressionAt?, spelled, if_pos (here ▸ read)]
        exact (Scope.expression_eq_ok_iff.mp given).1
      rw [ih distinct.2 walkedRest, found, Tree.expressionAt?, absent, here,
        Segment.markerOf_append]
      simp [Conditions.define, Dict.get?_insert]
    · have differ : key.text? ≠ some (Segment.securityKey ++ marker) := fun same =>
        here (Option.some.inj (read.symm.trans same))
      have later : Tree.expressionAt? ((key, value) :: rest) (Segment.securityKey ++ marker) =
          Tree.expressionAt? rest (Segment.securityKey ++ marker) := by
        rw [Tree.expressionAt?, spelled, if_neg differ, ← Tree.expressionAt?]
      rw [later]
      split at walked
      · next other =>
        obtain ⟨expression, given, walkedRest⟩ := walked
        have apart : marker ≠ Segment.markerOf name := by
          intro same
          rcases Segment.isHoisted_iff.mp other.1 with bare | ⟨lead, _⟩
          · exact other.2 bare
          · exact here (by rw [same, Segment.append_markerOf lead])
        rw [ih distinct.2 walkedRest]
        simp [Conditions.define, Dict.get?_insert, apart]
      · exact ih distinct.2 walked

end Hoisted

def collect {α : Type} (f : α → Except MappingError (List Step)) :
    List α → Except MappingError (List Step)
  | [] => .ok []
  | first :: rest => do
    let steps ← f first
    let more ← collect f rest
    return steps ++ more

section Collect

variable {α : Type} {f : α → Except MappingError (List Step)} {parts : List α} {steps : List Step}

theorem collect_cons_eq_ok_iff {first : α} :
    collect f (first :: parts) = .ok steps ↔
      ∃ own more, f first = .ok own ∧ collect f parts = .ok more ∧ steps = own ++ more := by
  simp only [collect, Except.bind_eq_ok_iff, Except.pure_eq_ok_iff]
  constructor
  · rintro ⟨own, walked, more, walkedRest, rfl⟩
    exact ⟨own, more, walked, walkedRest, rfl⟩
  · rintro ⟨own, more, walked, walkedRest, rfl⟩
    exact ⟨own, walked, more, walkedRest, rfl⟩

theorem exists_of_collect (walked : collect f parts = .ok steps) :
    ∀ part ∈ parts, ∃ own, f part = .ok own := by
  induction parts generalizing steps with
  | nil => nofun
  | cons first rest ih =>
    obtain ⟨own, more, given, walkedRest, rfl⟩ := collect_cons_eq_ok_iff.mp walked
    intro part present
    rcases List.mem_cons.mp present with rfl | later
    · exact ⟨own, given⟩
    · exact ih walkedRest part later

theorem exists_collect_iff :
    (∃ steps, collect f parts = .ok steps) ↔ ∀ part ∈ parts, ∃ own, f part = .ok own := by
  constructor
  · rintro ⟨steps, walked⟩
    exact exists_of_collect walked
  · intro each
    induction parts with
    | nil => exact ⟨[], rfl⟩
    | cons first rest ih =>
      obtain ⟨own, given⟩ := each first List.mem_cons_self
      obtain ⟨more, walkedRest⟩ := ih fun part later => each part (List.mem_cons_of_mem _ later)
      exact ⟨own ++ more, collect_cons_eq_ok_iff.mpr ⟨own, more, given, walkedRest, rfl⟩⟩

theorem collect_eq_flatMap (walked : collect f parts = .ok steps) :
    steps = parts.flatMap fun part => (f part).toOption.getD [] := by
  induction parts generalizing steps with
  | nil =>
    cases walked
    rfl
  | cons first rest ih =>
    obtain ⟨own, more, given, walkedRest, rfl⟩ := collect_cons_eq_ok_iff.mp walked
    have gives : (f first).toOption = some own := Except.toOption_eq_some_iff.mpr given
    rw [List.flatMap_cons, ← ih walkedRest, gives, Option.getD_some]

theorem mem_collect_iff (walked : collect f parts = .ok steps) (step : Step) :
    step ∈ steps ↔ ∃ part ∈ parts, ∃ own, f part = .ok own ∧ step ∈ own := by
  induction parts generalizing steps with
  | nil =>
    cases walked
    simp
  | cons first rest ih =>
    obtain ⟨own, more, given, walkedRest, rfl⟩ := collect_cons_eq_ok_iff.mp walked
    rw [List.mem_append, ih walkedRest]
    simp only [List.mem_cons, exists_eq_or_imp, given, Except.ok.injEq, exists_eq_left']

theorem collect_append (more : List α) :
    collect f (parts ++ more) = (do
      let steps ← collect f parts
      let later ← collect f more
      return steps ++ later) := by
  induction parts with
  | nil =>
    rw [List.nil_append, collect]
    cases collect f more with
    | error error => rfl
    | ok later => rfl
  | cons first rest ih =>
    rw [List.cons_append, collect, collect, ih]
    cases f first with
    | error error => rfl
    | ok own =>
      cases collect f rest with
      | error error => rfl
      | ok steps =>
        cases collect f more with
        | error error => rfl
        | ok later =>
          show Except.ok (own ++ (steps ++ later)) = Except.ok (own ++ steps ++ later)
          rw [List.append_assoc]

end Collect

/-- The steps of a field that a path visits; the last one asks for what its value holds. -/
def visitSteps (resolver : Resolver) (scope : Scope) (key : String) (value : Yaml) (below : Below)
    (condition : Option String) (visit : FieldRef × Bool) : Except MappingError (List Step) := do
  let more ←
    if visit.2 then
      descend scope key value below (resolver.fieldType? visit.1.owner visit.1.field) condition
        visit.1
    else .ok []
  return fieldSteps scope visit.1 condition (visit.2 && guardsItself value) ++ more

theorem visitSteps_eq_ok_iff {key : String} {value : Yaml} {below : Below}
    {condition : Option String} {visit : FieldRef × Bool} {steps : List Step} :
    visitSteps resolver scope key value below condition visit = .ok steps ↔
      ∃ more,
        (if visit.2 then
          descend scope key value below (resolver.fieldType? visit.1.owner visit.1.field) condition
            visit.1 = .ok more
        else more = []) ∧
        steps = fieldSteps scope visit.1 condition (visit.2 && guardsItself value) ++ more := by
  obtain ⟨ref, last⟩ := visit
  cases last with
  | true =>
    simp only [visitSteps, if_true, Except.bind_eq_ok_iff, Except.pure_eq_ok_iff]
    exact exists_congr fun more => and_congr_right fun _ => eq_comm
  | false => simp [visitSteps, eq_comm]

section Follow

variable {parent : Option FieldRef} {key : String} {value : Yaml} {below : Below}
  {marker? owner : Option String} {fields : List String} {conditions : Conditions}

theorem follow_fields (plain : ∀ field ∈ fields, Segment.IsField field) (some_ : fields ≠ [])
    (type : String) :
    follow resolver scope parent key value below fields (some type) marker? conditions = (do
      let condition ← conditions.ofMarker scope marker?
      let steps ← collect (visitSteps resolver scope key value below condition)
        (resolver.visits type fields)
      return (conditions, steps)) := by
  induction fields generalizing type with
  | nil => contradiction
  | cons field rest ih =>
    have classified : Segment.classify field = .field field := plain field List.mem_cons_self
    rw [follow, classified]
    cases marked : conditions.ofMarker scope marker? with
    | error error => rfl
    | ok condition =>
      by_cases ended : rest = []
      · subst ended
        rw [resolver.visits_singleton]
        simp only [Except.ok_bind, collect, visitSteps, List.isEmpty_nil, Bool.true_and, if_true]
        cases descend scope key value below (resolver.fieldType? type field) condition
          ⟨type, field⟩ with
        | error error => rfl
        | ok more => simp
      · have going : rest.isEmpty = false := by simpa using ended
        have later := ih (fun field present => plain field (List.mem_cons_of_mem _ present)) ended
        cases leads : resolver.fieldType? type field with
        | none =>
          simp [Resolver.visits, collect, visitSteps, going, leads, Except.ok_bind]
        | some next =>
          simp [Resolver.visits, collect, visitSteps, going, leads, later next, marked,
            Except.ok_bind]

theorem follow_spelled {name : String} (spelled : Segment.Spells name marker? fields) :
    follow resolver scope parent key value below (Segment.path name) owner none conditions =
      follow resolver scope parent key value below fields owner marker? conditions := by
  rw [spelled.path]
  cases marker? with
  | none => rfl
  | some marker =>
    have classified : Segment.classify marker = .marker marker := spelled.marked marker rfl
    rw [Option.toList_some, List.singleton_append, follow, classified]

theorem follow_limit {segment : String} {rest : List String} {after : Conditions}
    {steps : List Step}
    (classified : Segment.classify segment = .maxDepth ∨
      Segment.classify segment = .serializedName ∨ Segment.classify segment = .ignore)
    (walked : follow resolver scope parent key value below (segment :: rest) owner marker?
      conditions = .ok (after, steps)) :
    ∃ ref step more, parent = some ref ∧ step.IsLimit ∧ (step.changeAt? ref).isSome ∧
      steps = step :: more ∧
      follow resolver scope parent key value below rest owner marker? conditions =
        .ok (after, more) := by
  rcases classified with classified | classified | classified
  all_goals
    -- a value of the wrong kind fails
    simp only [follow, classified] at walked
    repeat' split at walked
    all_goals
      simp only [Scope.malformed, Except.bind_eq_ok_iff, Except.pure_eq_ok_iff, Prod.exists,
        Except.ok.injEq, Prod.mk.injEq, reduceCtorEq, false_and, exists_false] at walked
    obtain ⟨_, rfl, ref, enclosed, next, more, walkedRest, rfl, rfl⟩ := walked
    refine ⟨ref, _, more, Scope.enclosing_eq_ok_iff.mp enclosed, ?_, ?_, rfl, walkedRest⟩
    · trivial
    · simp [Step.changeAt?]

theorem follow_directive {after : Conditions} {steps : List Step}
    (directive : Segment.IsDirective key) (free : Segment.isHoisted key = false)
    (walked : follow resolver scope parent key value below (Segment.path key) owner none
      conditions = .ok (after, steps)) :
    after = conditions ∧ ∀ ref tag, .tag ref tag ∉ steps := by
  rw [directive.1] at walked
  obtain ⟨_, step, more, _, limit, _, rfl, walkedRest⟩ :=
    follow_limit (directive.classify_of_not_isHoisted free) walked
  cases walkedRest
  refine ⟨rfl, fun ref tag present => ?_⟩
  cases List.mem_singleton.mp present
  exact limit

theorem key_of_isHoisted {name : String} (hoisted : Segment.isHoisted name = true) :
    Walk.key resolver scope owner parent conditions (.string name) value below =
      .ok (conditions, []) := by
  simp [Walk.key, Scope.keyName, Yaml.text?, Yaml.untagged, Except.ok_bind, hoisted, Pure.pure,
    Except.pure]

theorem key_of_not_isHoisted {name : String} (free : Segment.isHoisted name = false) :
    Walk.key resolver scope owner parent conditions (.string name) value below =
      follow resolver scope parent name value below (Segment.path name) owner none conditions := by
  simp [Walk.key, Scope.keyName, Yaml.text?, Yaml.untagged, Except.ok_bind, free]

theorem key_of_spelled {name type : String} (spelled : Segment.Spells name marker? fields) :
    Walk.key resolver scope (some type) parent conditions (.string name) value below = (do
      let condition ← conditions.ofMarker scope marker?
      let steps ← collect (visitSteps resolver scope name value below condition)
        (resolver.visits type fields)
      return (conditions, steps)) := by
  rw [key_of_not_isHoisted spelled.not_isHoisted, follow_spelled spelled,
    follow_fields spelled.plain spelled.named]

theorem key_of_spelled_none {name : String} (spelled : Segment.Spells name marker? fields) :
    Walk.key resolver scope none parent conditions (.string name) value below =
      .ok (conditions, []) := by
  rw [key_of_not_isHoisted spelled.not_isHoisted, follow_spelled spelled]
  cases fields with
  | nil => rfl
  | cons field rest =>
    have classified : Segment.classify field = .field field :=
      spelled.plain field List.mem_cons_self
    rw [follow, classified]

theorem key_conditions {name : String} {after : Conditions} {steps : List Step}
    (regular : Segment.IsDirective name ∨
      ∃ marker? fields, Segment.Spells name marker? fields)
    (walked : Walk.key resolver scope owner parent conditions (.string name) value below =
      .ok (after, steps)) : after = conditions := by
  rcases regular with directive | ⟨marker?, fields, spelled⟩
  · cases hoisted : Segment.isHoisted name with
    | true =>
      rw [key_of_isHoisted hoisted] at walked
      cases walked
      rfl
    | false =>
      rw [key_of_not_isHoisted hoisted] at walked
      exact (follow_directive directive hoisted walked).1
  · cases owner with
    | none =>
      rw [key_of_spelled_none spelled] at walked
      cases walked
      rfl
    | some type =>
      rw [key_of_spelled spelled] at walked
      simp only [Except.bind_eq_ok_iff, Except.pure_eq_ok_iff, Prod.mk.injEq] at walked
      obtain ⟨_, _, _, _, same, _⟩ := walked
      exact same.symm

end Follow

/-- The steps of one key of a level, all under the conditions of the level. -/
def keySteps (resolver : Resolver) (scope : Scope) (owner : Option String)
    (parent : Option FieldRef) (conditions : Conditions) (pair : Yaml × Yaml) :
    Except MappingError (List Step) :=
  (key resolver scope owner parent conditions pair.1 pair.2 (inside resolver scope pair.2)).map
    Prod.snd

theorem keys_of_kept {owner : Option String} {parent : Option FieldRef} {conditions : Conditions}
    {tree : Tree}
    (kept : ∀ pair ∈ tree, ∀ after steps,
      key resolver scope owner parent conditions pair.1 pair.2 (inside resolver scope pair.2) =
        .ok (after, steps) → after = conditions) :
    keys resolver scope tree owner parent conditions =
      collect (keySteps resolver scope owner parent conditions) tree := by
  induction tree with
  | nil => rfl
  | cons pair rest ih =>
    obtain ⟨here, later⟩ := List.forall_mem_cons.mp kept
    rw [keys, collect, ← ih later]
    simp only [keySteps]
    cases walked : key resolver scope owner parent conditions pair.1 pair.2
        (inside resolver scope pair.2) with
    | error error => rfl
    | ok outcome =>
      obtain ⟨after, steps⟩ := outcome
      rw [here after steps walked]
      rfl

theorem keys_of_regular {owner : Option String} {parent : Option FieldRef}
    {conditions : Conditions} {tree : Tree}
    (spelled : ∀ key value, (key, value) ∈ tree → ∃ name, key = .string name ∧
      (Segment.IsDirective name ∨ ∃ marker? fields, Segment.Spells name marker? fields)) :
    keys resolver scope tree owner parent conditions =
      collect (keySteps resolver scope owner parent conditions) tree := by
  refine keys_of_kept fun pair present after steps walked => ?_
  obtain ⟨key, value⟩ := pair
  obtain ⟨name, rfl, regular⟩ := spelled key value present
  exact key_conditions regular walked

inductive Part where
  /-- A type of the definition, which gets a table. -/
  | table (type : String)
  /-- A tree of a group of a type. -/
  | tree (scope : Scope) (tree : Tree)

def Part.steps (resolver : Resolver) : Part → Except MappingError (List Step)
  | .table type => .ok [.table type]
  | .tree scope pairs =>
    if pairs.isEmpty then .error (.emptyGroup scope.root scope.group "mapping definition")
    else level resolver scope (some scope.root) none none pairs

theorem trees_eq_collect (declared : List Tree) :
    trees resolver scope declared =
      collect (Part.steps resolver) (declared.map (.tree scope)) := by
  induction declared with
  | nil => rfl
  | cons tree rest ih =>
    rw [trees, List.map_cons, collect, ih, Part.steps]
    split
    · rfl
    · rfl

theorem groups_eq_collect (root : String) (declared : List (String × List Tree)) :
    groups resolver root declared =
      collect (Part.steps resolver)
        (declared.flatMap fun entry => entry.2.map (.tree ⟨root, entry.1⟩)) := by
  induction declared with
  | nil => rfl
  | cons entry rest ih =>
    rw [groups, List.flatMap_cons, collect_append, ih, trees_eq_collect]

theorem types_eq_collect (declared : List (String × Groups)) :
    types resolver declared =
      collect (Part.steps resolver)
        (declared.flatMap fun entry =>
          .table entry.1 :: entry.2.entries.flatMap fun group =>
            group.2.map (.tree ⟨entry.1, group.1⟩)) := by
  induction declared with
  | nil => rfl
  | cons entry rest ih =>
    rw [types, List.flatMap_cons, collect_append, collect, ih, groups_eq_collect]
    cases collect (Part.steps resolver)
        (entry.2.entries.flatMap fun group => group.2.map (.tree ⟨entry.1, group.1⟩)) with
    | error error => rfl
    | ok steps => rfl

end Walk

section Definition

variable {definition : Definition} {resolver : Resolver} {steps : List Step}

theorem Definition.tables_eq_ok_iff {tables : Tables} :
    definition.tables resolver = .ok tables ↔
      ∃ steps, definition.steps resolver = .ok steps ∧ Tables.ofSteps steps = tables := by
  rw [Definition.tables, Except.map_eq_ok_iff]

theorem Definition.exists_tables_guardedBooks :
    ∃ tables, guardedBooks.tables bookResolver = .ok tables :=
  Except.exists_of_isOk (by decide +kernel)

def Definition.parts (definition : Definition) : List Walk.Part :=
  definition.types.entries.flatMap fun entry =>
    .table entry.1 :: entry.2.entries.flatMap fun group =>
      group.2.map (.tree ⟨entry.1, group.1⟩)

theorem Definition.steps_eq_collect :
    definition.steps resolver = Walk.collect (Walk.Part.steps resolver) definition.parts :=
  Walk.types_eq_collect definition.types.entries

theorem Definition.table_mem_parts_iff {type : String} :
    .table type ∈ definition.parts ↔ type ∈ definition.typeNames := by
  simp [parts, typeNames, Dict.keys]

theorem Definition.tree_mem_parts_iff {scope : Scope} {tree : Tree} :
    .tree scope tree ∈ definition.parts ↔ tree ∈ definition.trees scope.root scope.group := by
  rw [mem_trees_iff, parts]
  simp only [List.mem_flatMap, List.mem_cons, List.mem_map, reduceCtorEq, false_or,
    Walk.Part.tree.injEq, Prod.exists]
  constructor
  · rintro ⟨_, groups, hasType, _, trees, hasGroup, _, hasTree, rfl, rfl⟩
    exact ⟨groups, trees, hasType, hasGroup, hasTree⟩
  · rintro ⟨groups, trees, hasType, hasGroup, hasTree⟩
    exact ⟨_, groups, hasType, _, trees, hasGroup, tree, hasTree, rfl, rfl⟩

theorem Definition.exists_level_of_steps (walked : definition.steps resolver = .ok steps)
    {type group : String} {tree : Tree} (declared : tree ∈ definition.trees type group) :
    tree.isEmpty = false ∧
      ∃ own, Walk.level resolver ⟨type, group⟩ (some type) none none tree = .ok own := by
  rw [steps_eq_collect] at walked
  obtain ⟨own, walkedTree⟩ :=
    Walk.exists_of_collect walked (.tree ⟨type, group⟩ tree) (tree_mem_parts_iff.mpr declared)
  rw [Walk.Part.steps] at walkedTree
  split at walkedTree
  · contradiction
  · next filled => exact ⟨Bool.eq_false_iff.mpr filled, own, walkedTree⟩

theorem Definition.mem_steps_iff (walked : definition.steps resolver = .ok steps) (step : Step) :
    step ∈ steps ↔ (∃ type ∈ definition.typeNames, step = .table type) ∨
      ∃ type group, ∃ tree ∈ definition.trees type group, ∃ own,
        Walk.level resolver ⟨type, group⟩ (some type) none none tree = .ok own ∧ step ∈ own := by
  have collected := walked
  rw [steps_eq_collect] at collected
  rw [Walk.mem_collect_iff collected]
  constructor
  · rintro ⟨part, declared, own, walkedPart, present⟩
    cases part with
    | table type =>
      cases walkedPart
      exact .inl ⟨type, table_mem_parts_iff.mp declared, List.mem_singleton.mp present⟩
    | tree scope tree =>
      rw [Walk.Part.steps] at walkedPart
      split at walkedPart
      · contradiction
      · exact .inr ⟨scope.root, scope.group, tree, tree_mem_parts_iff.mp declared, own, walkedPart,
          present⟩
  · rintro (⟨type, named, rfl⟩ | ⟨type, group, tree, declared, own, walkedTree, present⟩)
    · exact ⟨.table type, table_mem_parts_iff.mpr named, _, rfl, List.mem_singleton_self _⟩
    · have filled := (exists_level_of_steps walked declared).1
      refine ⟨.tree ⟨type, group⟩ tree, tree_mem_parts_iff.mpr declared, own, ?_, present⟩
      rw [Walk.Part.steps, if_neg (Bool.eq_false_iff.mp filled)]
      exact walkedTree

end Definition

end Visibility
