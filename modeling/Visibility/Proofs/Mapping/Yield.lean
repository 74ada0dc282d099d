import Visibility.Proofs.Mapping.Walking

set_option autoImplicit false
set_option relaxedAutoImplicit false

/-!
What steps a walk can give, whatever the tree.

`Yields` says how the steps of a successful walk are put together, with the field around the level and
the type that its fields belong to, and what is known of the conditions of their tags.  The main
statement is that every walk of a level gives such steps; what holds of all walks is then shown along
`Yields`, without the walk itself.
-/

namespace Visibility

/-- Whether the fields of a type can come under a level: it is the type of the level, or some field
leads to it. -/
def Resolver.Reaches (resolver : Resolver) (owner : Option String) (type : String) : Prop :=
  owner = some type ∨ ∃ ref : FieldRef, resolver.fieldType? ref.owner ref.field = some type

namespace Walk

/-- Steps that a walk can give on a level of the owner's fields below a parent, with conditions that are
allowed. -/
inductive Yields (allowed : String → Prop) (resolver : Resolver) (scope : Scope) :
    Option String → Option FieldRef → List Step → Prop where
  | nil {owner : Option String} {parent : Option FieldRef} :
      Yields allowed resolver scope owner parent []
  | append {owner : Option String} {parent : Option FieldRef} {steps more : List Step}
      (first : Yields allowed resolver scope owner parent steps)
      (second : Yields allowed resolver scope owner parent more) :
      Yields allowed resolver scope owner parent (steps ++ more)
  /-- A `_security` directive tags the parent. -/
  | security {owner : Option String} {ref : FieldRef} {condition : String}
      (allows : allowed condition) :
      Yields allowed resolver scope owner (some ref)
        [.tag ref (scope.tag (some condition)), .catchAll (scope.tag (some condition))]
  | limit {owner : Option String} {ref : FieldRef} {step : Step} (limits : step.IsLimit)
      (own : (step.changeAt? ref).isSome) : Yields allowed resolver scope owner (some ref) [step]
  /-- A field whose tag is deferred gets one from the steps below it. -/
  | field {owner : Option String} {parent : Option FieldRef} {ref : FieldRef}
      {condition : Option String} {deferred : Bool} {more : List Step}
      (reached : resolver.Reaches owner ref.owner) (allows : ∀ own ∈ condition, allowed own)
      (below : Yields allowed resolver scope (resolver.fieldType? ref.owner ref.field) (some ref)
        more)
      (tagged : deferred = true → ∃ tag, .tag ref tag ∈ more) :
      Yields allowed resolver scope owner parent (fieldSteps scope ref condition deferred ++ more)

end Walk

def Segment.Secures (name : String) : Prop :=
  ∃ segment ∈ path name,
    classify segment = .security ∨ ∃ marker, classify segment = .namedSecurity marker

theorem Segment.secures_of_isHoisted {name : String} (hoisted : isHoisted name = true) :
    Secures name := by
  by_cases own : name = securityKey
  · subst own
    exact ⟨securityKey, by decide +kernel, .inl (by decide +kernel)⟩
  · obtain ⟨alone, classified⟩ := classify_of_isHoisted hoisted own
    exact ⟨name, alone, .inr ⟨markerOf name, classified⟩⟩

theorem Segment.isHoisted_of_secures {name : String} (secures : Secures name)
    (undotted : '.' ∉ name.toList) : isHoisted name = true := by
  obtain ⟨segment, present, security⟩ := secures
  rw [path_of_not_dot undotted] at present
  cases List.mem_singleton.mp present
  rw [isHoisted_iff]
  rcases security with security | ⟨marker, named⟩
  · exact .inl (eq_of_classify_security security)
  · exact .inr ⟨(classify_eq_namedSecurity_iff.mp named).1, undotted⟩

def Yaml.Joins (allowed : String → Prop) (value : Yaml) : Prop :=
  ∀ expression, value.text?.map Text.trim = some expression → expression ≠ "" →
    ∀ inherited : Option String, (∀ condition ∈ inherited, allowed condition) →
      allowed (conjoin inherited expression)

def Tree.Joins (allowed : String → Prop) (tree : Tree) : Prop :=
  ∀ level, Level tree level → ∀ key value, (key, value) ∈ level →
    ∀ name, key.text? = some name → Segment.Secures name → value.Joins allowed

theorem Tree.Joins.inside {allowed : String → Prop} {tree sub : Tree} {key : Yaml}
    (joins : tree.Joins allowed) (pair : (key, .mapping sub) ∈ tree) : sub.Joins allowed :=
  fun level below => joins level (.inside pair below)

theorem conjoin_ne_empty (inherited : Option String) {expression : String}
    (filled : expression ≠ "") : conjoin inherited expression ≠ "" := by
  cases inherited with
  | none => exact filled
  | some inherited =>
    simp [conjoin]

theorem Tree.joins_ne_empty (tree : Tree) : tree.Joins (· ≠ "") :=
  fun _ _ _ _ _ _ _ _ _ _ filled inherited _ => conjoin_ne_empty inherited filled

theorem Yaml.Joins.allowed {allowed : String → Prop} {scope : Scope}
    {directive expression : String} {value : Yaml} {inherited : Option String}
    (joins : value.Joins allowed) (given : scope.expression directive value = .ok expression)
    (before : ∀ condition ∈ inherited, allowed condition) :
    allowed (conjoin inherited expression) := by
  obtain ⟨spelled, filled⟩ := Scope.expression_eq_ok_iff.mp given
  refine joins expression spelled ?_ inherited before
  rintro rfl
  contradiction

structure Conditions.Allowed (allowed : String → Prop) (conditions : Conditions) : Prop where
  inherited : ∀ condition ∈ conditions.inherited, allowed condition
  named : ∀ marker condition, conditions.named.get? marker = some condition → allowed condition

namespace Conditions.Allowed

variable {allowed : String → Prop} {conditions : Conditions} {scope : Scope}

theorem start {inherited : Option String} (allows : ∀ condition ∈ inherited, allowed condition) :
    Conditions.Allowed allowed { inherited := inherited } := by
  refine ⟨allows, fun marker condition found => ?_⟩
  rw [Dict.get?_empty] at found
  contradiction

theorem define (allows : conditions.Allowed allowed) (marker : String) {expression : String}
    (joined : allowed (conjoin conditions.inherited expression)) :
    (conditions.define marker expression).Allowed allowed := by
  refine ⟨allows.inherited, fun other condition found => ?_⟩
  rw [Conditions.define, Dict.get?_insert] at found
  split at found
  · cases found
    exact joined
  · exact allows.named other condition found

theorem ofMarker (allows : conditions.Allowed allowed) {marker? condition : Option String}
    (marked : conditions.ofMarker scope marker? = .ok condition) :
    ∀ own ∈ condition, allowed own := by
  rw [Conditions.ofMarker_eq_ok_iff] at marked
  cases marker? with
  | none => exact marked ▸ allows.inherited
  | some marker =>
    obtain ⟨found, named, rfl⟩ := marked
    rintro _ ⟨⟩
    exact allows.named marker found named

end Conditions.Allowed

namespace Walk

variable {allowed : String → Prop} {resolver : Resolver} {scope : Scope} {owner : Option String}
  {parent : Option FieldRef} {conditions after : Conditions} {steps : List Step}

theorem yields_security {value : Yaml} (joins : value.Joins allowed)
    (allows : conditions.Allowed allowed)
    (walked : security scope parent value conditions = .ok (after, steps)) :
    Yields allowed resolver scope owner parent steps ∧ after.Allowed allowed := by
  obtain ⟨expression, ref, given, rfl, same⟩ := security_eq_ok_iff.mp walked
  cases same
  have joined : allowed (conjoin conditions.inherited expression) :=
    joins.allowed given allows.inherited
  refine ⟨.security joined, ?_, allows.named⟩
  rintro _ ⟨⟩
  exact joined

theorem exists_tag_of_security {value : Yaml} {ref : FieldRef}
    (walked : security scope (some ref) value conditions = .ok (after, steps)) :
    ∃ tag, .tag ref tag ∈ steps := by
  obtain ⟨expression, _, _, enclosed, same⟩ := security_eq_ok_iff.mp walked
  cases enclosed
  cases same
  exact ⟨_, List.mem_cons_self⟩

/-- What the values of a level's hoisted keys hold can be joined to allowed conditions. -/
def HoistedJoin (allowed : String → Prop) (tree : Tree) : Prop :=
  ∀ pair ∈ tree, ∀ name, pair.1.text? = some name → Segment.isHoisted name = true →
    pair.2.Joins allowed

theorem hoistedJoin_of_joins {tree : Tree} (joins : tree.Joins allowed) :
    HoistedJoin allowed tree :=
  fun pair present name named hoisted =>
    joins tree .self pair.1 pair.2 present name named (Segment.secures_of_isHoisted hoisted)

theorem yields_ownSecurity {tree : Tree} (join : HoistedJoin allowed tree)
    (allows : conditions.Allowed allowed)
    (walked : ownSecurity scope parent conditions tree = .ok (after, steps)) :
    Yields allowed resolver scope owner parent steps ∧ after.Allowed allowed := by
  induction tree generalizing conditions after steps with
  | nil =>
    cases walked
    exact ⟨.nil, allows⟩
  | cons pair rest ih =>
    obtain ⟨name, named, walked⟩ := ownSecurity_cons_eq_ok_iff.mp walked
    obtain ⟨here, later⟩ := List.forall_mem_cons.mp join
    split at walked
    · next own =>
      obtain ⟨⟨between, first⟩, ⟨last, more⟩, applied, walkedRest, same⟩ := walked
      cases same
      have hoisted : Segment.isHoisted name = true := by rw [own]; decide +kernel
      obtain ⟨yieldsFirst, allowsBetween⟩ := yields_security (here name named hoisted) allows applied
      obtain ⟨yieldsMore, allowsLast⟩ := ih later allowsBetween walkedRest
      exact ⟨.append yieldsFirst yieldsMore, allowsLast⟩
    · exact ih later allows walked

theorem exists_tag_of_ownSecurity {tree : Tree} {ref : FieldRef}
    (present : ∃ pair ∈ tree, pair.1.text? = some Segment.securityKey)
    (walked : ownSecurity scope (some ref) conditions tree = .ok (after, steps)) :
    ∃ tag, .tag ref tag ∈ steps := by
  induction tree generalizing conditions after steps with
  | nil => simp at present
  | cons pair rest ih =>
    obtain ⟨name, named, walked⟩ := ownSecurity_cons_eq_ok_iff.mp walked
    split at walked
    · obtain ⟨⟨between, first⟩, ⟨last, more⟩, applied, _, same⟩ := walked
      cases same
      obtain ⟨tag, given⟩ := exists_tag_of_security applied
      exact ⟨tag, List.mem_append_left _ given⟩
    · next other =>
      refine ih ?_ walked
      obtain ⟨found, here, spelled⟩ := present
      rcases List.mem_cons.mp here with rfl | later
      · exact absurd (Option.some.inj (named.symm.trans spelled)) other
      · exact ⟨found, later, spelled⟩

theorem allowed_namedSecurity {tree : Tree} (join : HoistedJoin allowed tree)
    (allows : conditions.Allowed allowed)
    (walked : namedSecurity scope conditions tree = .ok after) : after.Allowed allowed := by
  induction tree generalizing conditions with
  | nil =>
    cases walked
    exact allows
  | cons pair rest ih =>
    obtain ⟨name, named, walked⟩ := namedSecurity_cons_eq_ok_iff.mp walked
    obtain ⟨here, later⟩ := List.forall_mem_cons.mp join
    split at walked
    · next hoisted =>
      obtain ⟨expression, given, walkedRest⟩ := walked
      have joined := (here name named hoisted.1).allowed given allows.inherited
      exact ih later (allows.define _ joined) walkedRest
    · exact ih later allows walked

theorem hoisted_eq_ok_iff {inherited : Option String} {tree : Tree} :
    hoisted scope parent inherited tree = .ok (after, steps) ↔
      ∃ started, ownSecurity scope parent { inherited := inherited } tree = .ok (started, steps) ∧
        namedSecurity scope started tree = .ok after := by
  simp only [hoisted, Except.bind_eq_ok_iff, Except.pure_eq_ok_iff, Prod.exists, Prod.mk.injEq]
  constructor
  · rintro ⟨started, _, applied, _, defined, rfl, rfl⟩
    exact ⟨started, applied, defined⟩
  · rintro ⟨started, applied, defined⟩
    exact ⟨started, _, applied, _, defined, rfl, rfl⟩

/-- What a field's value gives below the field, with a tag of the field where the value guards it. -/
def YieldsBelow (allowed : String → Prop) (resolver : Resolver) (scope : Scope) (key : String)
    (value : Yaml) (below : Below) : Prop :=
  ∀ (owner condition : Option String) (ref : FieldRef) (more : List Step),
    (∀ own ∈ condition, allowed own) → descend scope key value below owner condition ref = .ok more →
    Yields allowed resolver scope owner (some ref) more ∧
      (guardsItself value = true → ∃ tag, .tag ref tag ∈ more)

theorem yields_follow {key : String} {value : Yaml} {below : Below}
    (deeper : YieldsBelow allowed resolver scope key value below) {segments : List String}
    {cursor marker : Option String} (reaches : ∀ type ∈ cursor, resolver.Reaches owner type)
    (joins : ∀ segment ∈ segments, Segment.classify segment = .security ∨
      (∃ marker, Segment.classify segment = .namedSecurity marker) → value.Joins allowed)
    (allows : conditions.Allowed allowed)
    (walked : follow resolver scope parent key value below segments cursor marker conditions =
      .ok (after, steps)) :
    Yields allowed resolver scope owner parent steps ∧ after.Allowed allowed := by
  induction segments generalizing cursor marker conditions after steps with
  | nil =>
    cases walked
    exact ⟨.nil, allows⟩
  | cons segment rest ih =>
    obtain ⟨here, later⟩ := List.forall_mem_cons.mp joins
    have limit (classified : Segment.classify segment = .maxDepth ∨
        Segment.classify segment = .serializedName ∨ Segment.classify segment = .ignore) :
        Yields allowed resolver scope owner parent steps ∧ after.Allowed allowed := by
      obtain ⟨ref, step, more, rfl, limits, own, rfl, walkedRest⟩ := follow_limit classified walked
      obtain ⟨yieldsRest, allowsAfter⟩ := ih reaches later allows walkedRest
      exact ⟨.append (.limit limits own) yieldsRest, allowsAfter⟩
    cases classified : Segment.classify segment with
    | maxDepth => exact limit (.inl classified)
    | serializedName => exact limit (.inr (.inl classified))
    | ignore => exact limit (.inr (.inr classified))
    | namedSecurity marker =>
      rw [follow, classified] at walked
      obtain ⟨expression, given, walkedRest⟩ := Except.bind_eq_ok_iff.mp walked
      have joined := (here (.inr ⟨marker, classified⟩)).allowed given allows.inherited
      exact ih reaches later (allows.define _ joined) walkedRest
    | security =>
      simp only [follow, classified, Except.bind_eq_ok_iff, Except.pure_eq_ok_iff,
        Prod.exists] at walked
      obtain ⟨_, own, applied, _, more, walkedRest, same⟩ := walked
      cases same
      obtain ⟨yieldsOwn, allowsOwn⟩ := yields_security (here (.inl classified)) allows applied
      obtain ⟨yieldsMore, allowsAfter⟩ := ih reaches later allowsOwn walkedRest
      exact ⟨.append yieldsOwn yieldsMore, allowsAfter⟩
    | marker used =>
      rw [follow, classified] at walked
      exact ih reaches later allows walked
    | field name =>
      rw [follow, classified] at walked
      cases cursor with
      | none =>
        cases walked
        exact ⟨.nil, allows⟩
      | some type =>
        obtain ⟨condition, marked, walkedField⟩ := Except.bind_eq_ok_iff.mp walked
        have reached : resolver.Reaches owner type := reaches type rfl
        have allowsField : ∀ own ∈ condition, allowed own := allows.ofMarker marked
        -- before the end of the path nothing is deferred, and nothing stands below the field
        have passing : Yields allowed resolver scope owner parent
            (fieldSteps scope ⟨type, name⟩ condition false) := by
          have alone : Yields allowed resolver scope owner parent
              (fieldSteps scope ⟨type, name⟩ condition false ++ []) :=
            .field reached allowsField .nil fun deferred => absurd deferred Bool.false_ne_true
          rwa [List.append_nil] at alone
        dsimp only at walkedField
        split at walkedField
        · next ended =>
          simp only [Except.bind_eq_ok_iff, Except.pure_eq_ok_iff] at walkedField
          obtain ⟨more, descended, same⟩ := walkedField
          cases same
          obtain ⟨yieldsMore, tagged⟩ := deeper _ _ _ _ allowsField descended
          rw [ended, Bool.true_and]
          exact ⟨.field reached allowsField yieldsMore tagged, allows⟩
        · next going =>
          rw [Bool.eq_false_iff.mpr going, Bool.false_and] at walkedField
          split at walkedField
          · next next leads =>
            simp only [Except.bind_eq_ok_iff, Except.pure_eq_ok_iff, Prod.exists] at walkedField
            obtain ⟨_, more, walkedRest, same⟩ := walkedField
            cases same
            have onward : ∀ type ∈ some next, resolver.Reaches owner type := by
              rintro _ ⟨⟩
              exact .inr ⟨⟨type, name⟩, leads⟩
            obtain ⟨yieldsMore, allowsAfter⟩ := ih onward later allows walkedRest
            exact ⟨.append passing yieldsMore, allowsAfter⟩
          · cases walkedField
            exact ⟨passing, allows⟩

theorem yields_key {name value : Yaml} {below : Below}
    (deeper : ∀ key, YieldsBelow allowed resolver scope key value below)
    (joins : ∀ text, name.text? = some text → Segment.Secures text → value.Joins allowed)
    (allows : conditions.Allowed allowed)
    (walked : key resolver scope owner parent conditions name value below = .ok (after, steps)) :
    Yields allowed resolver scope owner parent steps ∧ after.Allowed allowed := by
  obtain ⟨text, named, walked⟩ := Except.bind_eq_ok_iff.mp walked
  split at walked
  · cases walked
    exact ⟨.nil, allows⟩
  · have inPath := fun segment present secures =>
      joins text (Scope.keyName_eq_ok_iff.mp named) ⟨segment, present, secures⟩
    exact yields_follow (deeper text) (fun _ => .inl) inPath allows walked

theorem exists_tag_of_level {inherited : Option String} {tree : Tree} {ref : FieldRef}
    (guards : guardsItself (.mapping tree) = true)
    (walked : level resolver scope owner (some ref) inherited tree = .ok steps) :
    ∃ tag, .tag ref tag ∈ steps := by
  obtain ⟨conditions, own, more, walkedOwn, _, rfl⟩ := level_eq_ok_iff.mp walked
  obtain ⟨started, applied, _⟩ := hoisted_eq_ok_iff.mp walkedOwn
  have present : ∃ pair ∈ tree, pair.1.text? = some Segment.securityKey := by
    simpa [guardsItself, Yaml.pairs?, Yaml.untagged] using guards
  obtain ⟨tag, given⟩ := exists_tag_of_ownSecurity present applied
  exact ⟨tag, List.mem_append_left _ given⟩

/-- The steps of a walk of a level are put together as `Yields` says. -/
theorem yields_level (tree : Tree) (joins : tree.Joins allowed) {inherited : Option String}
    (allows : ∀ condition ∈ inherited, allowed condition)
    (walked : level resolver scope owner parent inherited tree = .ok steps) :
    Yields allowed resolver scope owner parent steps := by
  induction tree using Tree.induct generalizing owner parent inherited steps with
  | step tree deeper =>
    have below {value : Yaml} (held : ∀ sub, value = .mapping sub → ∃ key, (key, value) ∈ tree)
        (key : String) :
        YieldsBelow allowed resolver scope key value (inside resolver scope value) := by
      intro owner condition ref more allows descended
      cases value with
      | mapping sub =>
        obtain ⟨key, pair⟩ := held sub rfl
        rw [descend_mapping] at descended
        exact ⟨deeper key sub pair (joins.inside pair) allows descended, fun guards =>
          exists_tag_of_level guards descended⟩
      | null =>
        cases descended
        exact ⟨.nil, nofun⟩
      | _ => cases descended
    have keysOf (rest : Tree) (present : ∀ pair ∈ rest, pair ∈ tree) {conditions : Conditions}
        {more : List Step} (allows : conditions.Allowed allowed)
        (walked : keys resolver scope rest owner parent conditions = .ok more) :
        Yields allowed resolver scope owner parent more := by
      induction rest generalizing conditions more with
      | nil =>
        cases walked
        exact .nil
      | cons pair rest ih =>
        obtain ⟨after, first, later, walkedKey, walkedRest, rfl⟩ := keys_cons_eq_ok_iff.mp walked
        have here : pair ∈ tree := present pair List.mem_cons_self
        obtain ⟨yieldsFirst, allowsAfter⟩ :=
          yields_key (below fun _ _ => ⟨pair.1, here⟩) (joins tree .self pair.1 pair.2 here) allows
            walkedKey
        have rest' := fun pair later => present pair (List.mem_cons_of_mem _ later)
        exact .append yieldsFirst (ih rest' allowsAfter walkedRest)
    obtain ⟨conditions, own, more, walkedOwn, walkedKeys, rfl⟩ := level_eq_ok_iff.mp walked
    obtain ⟨started, applied, defined⟩ := hoisted_eq_ok_iff.mp walkedOwn
    have join : HoistedJoin allowed tree := hoistedJoin_of_joins joins
    obtain ⟨yieldsOwn, allowsStarted⟩ := yields_ownSecurity join (.start allows) applied
    have allowsLevel : conditions.Allowed allowed := allowed_namedSecurity join allowsStarted defined
    exact .append yieldsOwn (keysOf tree (fun _ present => present) allowsLevel walkedKeys)

end Walk

namespace Definition

variable {definition : Definition} {resolver : Resolver} {steps : List Step} {step : Step}

theorem exists_yields_of_joins {allowed : String → Prop}
    (joins : ∀ type group, ∀ tree ∈ definition.trees type group, tree.Joins allowed)
    (walked : definition.steps resolver = .ok steps) (present : step ∈ steps)
    (other : ∀ type, step ≠ .table type) :
    ∃ type group own, definition.trees type group ≠ [] ∧
      Walk.Yields allowed resolver ⟨type, group⟩ (some type) none own ∧ step ∈ own ∧
      own ⊆ steps := by
  rcases (mem_steps_iff walked step).mp present with
    ⟨type, _, begins⟩ | ⟨type, group, tree, declared, own, walkedTree, inTree⟩
  · exact absurd begins (other type)
  · have unguarded : ∀ condition ∈ (none : Option String), allowed condition := by simp
    refine ⟨type, group, own, List.ne_nil_of_mem declared,
      Walk.yields_level tree (joins type group tree declared) unguarded walkedTree, inTree,
      fun step inOwn => ?_⟩
    exact (mem_steps_iff walked step).mpr
      (.inr ⟨type, group, tree, declared, own, walkedTree, inOwn⟩)

theorem exists_yields_of_mem_steps (walked : definition.steps resolver = .ok steps)
    (present : step ∈ steps) (other : ∀ type, step ≠ .table type) :
    ∃ type group own, definition.trees type group ≠ [] ∧
      Walk.Yields (· ≠ "") resolver ⟨type, group⟩ (some type) none own ∧ step ∈ own ∧
      own ⊆ steps :=
  exists_yields_of_joins (fun _ _ tree _ => tree.joins_ne_empty) walked present other

end Definition

end Visibility
