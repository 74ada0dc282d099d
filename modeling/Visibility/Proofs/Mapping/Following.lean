import Visibility.Proofs.Mapping.Walking

set_option autoImplicit false
set_option relaxedAutoImplicit false

/-!
What following a path does, segment by segment.

A segment passes the walk on to the next one, with another type, another marker or other conditions, or
the walk stops at a field.  What the security directives of a path keep of the conditions is known of
them wherever the walk of the level comes to.
-/

namespace Visibility

namespace Walk

/-- Where the walk along a path is: the type reached, the marker in force and the conditions. -/
structure Place where
  owner : Option String
  marker? : Option String
  conditions : Conditions

inductive Passes (resolver : Resolver) (scope : Scope) (segment : String) : Place → Place → Prop where
  | define {place : Place} {marker : String} (expression : String)
      (classified : Segment.classify segment = .namedSecurity marker) :
      Passes resolver scope segment place
        { place with conditions := place.conditions.define marker expression }
  | secure {place : Place} (inherited : Option String)
      (classified : Segment.classify segment = .security) :
      Passes resolver scope segment place
        { place with conditions := { place.conditions with inherited := inherited } }
  | limit {place : Place}
      (classified : Segment.classify segment = .maxDepth ∨
        Segment.classify segment = .serializedName ∨ Segment.classify segment = .ignore) :
      Passes resolver scope segment place place
  | mark {place : Place} {used : String} (classified : Segment.classify segment = .marker used) :
      Passes resolver scope segment place { place with marker? := some used }
  | visit {place : Place} {name type next : String} {condition : Option String}
      (classified : Segment.classify segment = .field name) (owned : place.owner = some type)
      (marked : place.conditions.ofMarker scope place.marker? = .ok condition)
      (leads : resolver.fieldType? type name = some next) :
      Passes resolver scope segment place { place with owner := some next }

/-- The walk of a path stops at a segment: a field of no type, or one that ends the path or leads to no
type. -/
inductive Stops (resolver : Resolver) (scope : Scope) (segment : String) (rest : List String)
    (place : Place) : Prop where
  | unowned {name : String} (classified : Segment.classify segment = .field name)
      (unowned : place.owner = none)
  | ended {name type : String} {condition : Option String}
      (classified : Segment.classify segment = .field name) (owned : place.owner = some type)
      (marked : place.conditions.ofMarker scope place.marker? = .ok condition)
      (ends : rest = [] ∨ resolver.fieldType? type name = none)

variable {resolver : Resolver} {scope : Scope} {owner marker? : Option String}
  {parent : Option FieldRef} {conditions after : Conditions} {value : Yaml} {below : Below}
  {steps : List Step}

theorem follow_cons_cases {key segment : String} {rest : List String}
    (walked : follow resolver scope parent key value below (segment :: rest) owner marker?
      conditions = .ok (after, steps)) :
    (∃ next more, Passes resolver scope segment ⟨owner, marker?, conditions⟩ next ∧
      follow resolver scope parent key value below rest next.owner next.marker? next.conditions =
        .ok (after, more)) ∨
    Stops resolver scope segment rest ⟨owner, marker?, conditions⟩ ∧ after = conditions := by
  have limit (classified : Segment.classify segment = .maxDepth ∨
      Segment.classify segment = .serializedName ∨ Segment.classify segment = .ignore) :
      ∃ next more, Passes resolver scope segment ⟨owner, marker?, conditions⟩ next ∧
        follow resolver scope parent key value below rest next.owner next.marker? next.conditions =
          .ok (after, more) := by
    obtain ⟨_, _, more, _, _, _, _, walkedRest⟩ := follow_limit classified walked
    exact ⟨_, more, .limit classified, walkedRest⟩
  cases classified : Segment.classify segment with
  | maxDepth => exact .inl (limit (.inl classified))
  | serializedName => exact .inl (limit (.inr (.inl classified)))
  | ignore => exact .inl (limit (.inr (.inr classified)))
  | namedSecurity marker =>
    rw [follow, classified] at walked
    obtain ⟨expression, _, walkedRest⟩ := Except.bind_eq_ok_iff.mp walked
    exact .inl ⟨_, steps, .define expression classified, walkedRest⟩
  | security =>
    simp only [follow, classified, Except.bind_eq_ok_iff, Except.pure_eq_ok_iff, Prod.exists,
      Prod.mk.injEq] at walked
    obtain ⟨between, _, applied, _, more, walkedRest, rfl, _⟩ := walked
    obtain ⟨expression, ref, _, _, same⟩ := security_eq_ok_iff.mp applied
    cases same
    let combined := conjoin conditions.inherited expression
    exact .inl ⟨⟨owner, marker?, { conditions with inherited := some combined }⟩, more,
      .secure (some combined) classified, walkedRest⟩
  | marker used =>
    rw [follow, classified] at walked
    exact .inl ⟨_, steps, .mark classified, walked⟩
  | field name =>
    rw [follow, classified] at walked
    cases owner with
    | none =>
      cases walked
      exact .inr ⟨.unowned classified rfl, rfl⟩
    | some type =>
      obtain ⟨condition, marked, walkedField⟩ := Except.bind_eq_ok_iff.mp walked
      dsimp only at walkedField
      split at walkedField
      · next ended =>
        obtain ⟨more, _, same⟩ := Except.bind_eq_ok_iff.mp walkedField
        cases same
        exact .inr ⟨.ended classified rfl marked (.inl (List.isEmpty_iff.mp ended)), rfl⟩
      · split at walkedField
        · next next leads =>
          simp only [Except.bind_eq_ok_iff, Except.pure_eq_ok_iff, Prod.exists,
            Prod.mk.injEq] at walkedField
          obtain ⟨_, more, walkedRest, rfl, _⟩ := walkedField
          exact .inl ⟨_, more, .visit classified rfl marked leads, walkedRest⟩
        · next leadsNowhere =>
          cases walkedField
          exact .inr ⟨.ended classified rfl marked (.inr leadsNowhere), rfl⟩

end Walk

/-- Whether the security directives among some segments keep what is known of conditions. -/
structure Segment.Keeps (known : Conditions → Prop) (segments : List String) : Prop where
  security : ∀ segment ∈ segments, classify segment = .security → ∀ conditions inherited,
    known conditions → known { conditions with inherited := inherited }
  namedSecurity : ∀ segment ∈ segments, ∀ marker, classify segment = .namedSecurity marker →
    ∀ conditions expression, known conditions → known (conditions.define marker expression)

theorem Segment.Keeps.trivial (segments : List String) : Keeps (fun _ => True) segments where
  security _ _ _ _ _ _ := True.intro
  namedSecurity _ _ _ _ _ _ _ := True.intro

theorem Segment.Keeps.mono {known : Conditions → Prop} {segments others : List String}
    (keeps : Keeps known segments) (among : others ⊆ segments) : Keeps known others where
  security := fun segment present => keeps.security segment (among present)
  namedSecurity := fun segment present => keeps.namedSecurity segment (among present)

theorem Segment.Keeps.tail {known : Conditions → Prop} {segment : String} {rest : List String}
    (keeps : Keeps known (segment :: rest)) : Keeps known rest :=
  keeps.mono (List.subset_cons_self segment rest)

def Tree.Keeps (known : Conditions → Prop) (hoisted : Bool) (pairs : Tree) : Prop :=
  ∀ pair ∈ pairs, ∀ text, pair.1.text? = some text → Segment.isHoisted text = hoisted →
    Segment.Keeps known (Segment.path text)

theorem Tree.keeps_trivial (hoisted : Bool) (pairs : Tree) : pairs.Keeps (fun _ => True) hoisted :=
  fun _ _ text _ _ => .trivial (Segment.path text)

namespace Walk

variable {resolver : Resolver} {scope : Scope} {owner : Option String} {parent : Option FieldRef}
  {conditions after : Conditions} {steps : List Step} {known : Conditions → Prop} {value : Yaml}
  {below : Below} {place next : Place}

theorem Passes.keeps {segment : String} {rest : List String}
    (passes : Passes resolver scope segment place next)
    (keeps : Segment.Keeps known (segment :: rest)) (start : known place.conditions) :
    known next.conditions := by
  cases passes with
  | define expression classified =>
    exact keeps.namedSecurity segment List.mem_cons_self _ classified _ expression start
  | secure inherited classified =>
    exact keeps.security segment List.mem_cons_self classified _ inherited start
  | limit => exact start
  | mark => exact start
  | visit => exact start

theorem follow_keeps {key : String} {segments : List String} {marker? : Option String}
    (keeps : Segment.Keeps known segments) (start : known conditions)
    (walked : follow resolver scope parent key value below segments owner marker? conditions =
      .ok (after, steps)) : known after := by
  induction segments generalizing owner marker? conditions steps with
  | nil =>
    cases walked
    exact start
  | cons segment rest ih =>
    rcases follow_cons_cases walked with ⟨next, more, passes, walkedRest⟩ | ⟨_, rfl⟩
    · exact ih keeps.tail (passes.keeps keeps start) walkedRest
    · exact start

theorem key_keeps {name : Yaml}
    (keeps : ∀ text, name.text? = some text → Segment.isHoisted text = false →
      Segment.Keeps known (Segment.path text))
    (start : known conditions)
    (walked : key resolver scope owner parent conditions name value below = .ok (after, steps)) :
    known after := by
  obtain ⟨text, named, walkedText⟩ := Except.bind_eq_ok_iff.mp walked
  split at walkedText
  · cases walkedText
    exact start
  · next free =>
    have kept := keeps text (Scope.keyName_eq_ok_iff.mp named) (Bool.eq_false_iff.mpr free)
    exact follow_keeps kept start walkedText

theorem exists_key_of_keys {earlier later : Tree} {pair : Yaml × Yaml}
    (keeps : earlier.Keeps known false) (start : known conditions)
    (walked : keys resolver scope (earlier ++ pair :: later) owner parent conditions = .ok steps) :
    ∃ reached outcome, known reached ∧
      key resolver scope owner parent reached pair.1 pair.2 (inside resolver scope pair.2) =
        .ok outcome := by
  induction earlier generalizing conditions steps with
  | nil =>
    obtain ⟨_, _, _, walkedKey, _⟩ := keys_cons_eq_ok_iff.mp walked
    exact ⟨conditions, _, start, walkedKey⟩
  | cons first rest ih =>
    obtain ⟨next, own, more, walkedKey, walkedRest, rfl⟩ := keys_cons_eq_ok_iff.mp walked
    obtain ⟨keepsHere, keepsLater⟩ := List.forall_mem_cons.mp keeps
    exact ih keepsLater (key_keeps keepsHere start walkedKey) walkedRest

theorem ownSecurity_keeps {tree : Tree} (keeps : tree.Keeps known true) (start : known conditions)
    (walked : ownSecurity scope parent conditions tree = .ok (after, steps)) : known after := by
  induction tree generalizing conditions steps with
  | nil =>
    cases walked
    exact start
  | cons pair rest ih =>
    obtain ⟨keepsHere, keepsLater⟩ := List.forall_mem_cons.mp keeps
    obtain ⟨name, named, walked⟩ := ownSecurity_cons_eq_ok_iff.mp walked
    split at walked
    · next own =>
      subst own
      obtain ⟨_, _, applied, walkedRest, same⟩ := walked
      cases same
      obtain ⟨expression, _, _, _, rfl⟩ := security_eq_ok_iff.mp applied
      have alone : Segment.securityKey ∈ Segment.path Segment.securityKey := by decide +kernel
      have keepsOwn := keepsHere Segment.securityKey named (by decide +kernel)
      have kept := keepsOwn.security _ alone (by decide +kernel) conditions
        (some (conjoin conditions.inherited expression)) start
      exact ih keepsLater kept walkedRest
    · exact ih keepsLater start walked

theorem namedSecurity_keeps {tree : Tree} (keeps : tree.Keeps known true) (start : known conditions)
    (walked : namedSecurity scope conditions tree = .ok after) : known after := by
  induction tree generalizing conditions with
  | nil =>
    cases walked
    exact start
  | cons pair rest ih =>
    obtain ⟨keepsHere, keepsLater⟩ := List.forall_mem_cons.mp keeps
    obtain ⟨name, named, walked⟩ := namedSecurity_cons_eq_ok_iff.mp walked
    split at walked
    · next defines =>
      obtain ⟨expression, _, walkedRest⟩ := walked
      obtain ⟨alone, classified⟩ := Segment.classify_of_isHoisted defines.1 defines.2
      have kept := (keepsHere name named defines.1).namedSecurity name alone _ classified conditions
        expression start
      exact ih keepsLater kept walkedRest
    · exact ih keepsLater start walked

theorem exists_key_of_level {earlier later : Tree} {pair : Yaml × Yaml} {inherited : Option String}
    (keepsHoisted : Tree.Keeps known true (earlier ++ pair :: later))
    (keeps : earlier.Keeps known false) (start : known { inherited := inherited })
    (walked : level resolver scope owner parent inherited (earlier ++ pair :: later) = .ok steps) :
    ∃ reached outcome, known reached ∧
      key resolver scope owner parent reached pair.1 pair.2 (inside resolver scope pair.2) =
        .ok outcome := by
  obtain ⟨conditions, own, more, walkedHoisted, walkedKeys, rfl⟩ := level_eq_ok_iff.mp walked
  simp only [hoisted, Except.bind_eq_ok_iff, Except.pure_eq_ok_iff, Prod.exists,
    Prod.mk.injEq] at walkedHoisted
  obtain ⟨secured, _, walkedOwn, started, walkedNamed, rfl, rfl⟩ := walkedHoisted
  have knownSecured := ownSecurity_keeps keepsHoisted start walkedOwn
  exact exists_key_of_keys keeps (namedSecurity_keeps keepsHoisted knownSecured walkedNamed) walkedKeys

end Walk

/-- The type that some segments of a path lead to; a segment that names no field leaves it as it is. -/
def Resolver.after? (resolver : Resolver) : Option String → List String → Option String
  | owner, [] => owner
  | owner, segment :: rest =>
    match Segment.classify segment with
    | .field name =>
      resolver.after? (owner.bind fun type => resolver.fieldType? type name) rest
    | _ => resolver.after? owner rest

theorem Resolver.after?_none (resolver : Resolver) (segments : List String) :
    resolver.after? none segments = none := by
  induction segments with
  | nil => rfl
  | cons segment rest ih =>
    rw [after?]
    split
    · exact ih
    · exact ih

namespace Walk

/-- The walk of a level comes to a level: to itself, or through a path that ends in a field with a map to
the levels of that map.  Each level has the type that its field leads to, if any. -/
inductive Reaches (resolver : Resolver) : Option String → Tree → Option String → Tree → Prop where
  | self {owner : Option String} {tree : Tree} : Reaches resolver owner tree owner tree
  | inside {owner found : Option String} {tree sub level : Tree} {key : Yaml}
      {name field type : String} {before : List String} (pair : (key, .mapping sub) ∈ tree)
      (named : key.text? = some name) (path : Segment.path name = before ++ [field])
      (plain : Segment.IsField field) (owned : resolver.after? owner before = some type)
      (below : Reaches resolver (resolver.fieldType? type field) sub found level) :
      Reaches resolver owner tree found level

variable {resolver : Resolver} {scope : Scope} {owner : Option String} {parent : Option FieldRef}
  {conditions after : Conditions} {steps : List Step} {known : Conditions → Prop} {value : Yaml}
  {below : Below} {place next : Place}

theorem Passes.after? {segment : String} (passes : Passes resolver scope segment place next)
    (rest : List String) :
    resolver.after? place.owner (segment :: rest) = resolver.after? next.owner rest := by
  cases passes with
  | define _ classified => rw [Resolver.after?, classified]
  | secure _ classified => rw [Resolver.after?, classified]
  | limit classified =>
    rcases classified with classified | classified | classified
    all_goals rw [Resolver.after?, classified]
  | mark classified => rw [Resolver.after?, classified]
  | visit classified owned _ leads =>
    rw [Resolver.after?, classified]
    simp only [owned, Option.bind_some, leads]

theorem Stops.isField {segment : String} {rest : List String}
    (stops : Stops resolver scope segment rest place) : Segment.IsField segment := by
  cases stops with
  | unowned classified => exact Segment.isField_of_classify classified
  | ended classified => exact Segment.isField_of_classify classified

theorem Stops.after? {segment : String} {rest later : List String}
    (stops : Stops resolver scope segment (rest ++ later) place) (more : later ≠ []) :
    resolver.after? place.owner (segment :: rest) = none := by
  cases stops with
  | unowned classified unowned =>
    rw [Resolver.after?, classified, unowned]
    exact resolver.after?_none rest
  | ended classified owned _ ends =>
    have leads := ends.resolve_left (List.append_ne_nil_of_right_ne_nil rest more)
    rw [Resolver.after?, classified]
    simp only [owned, Option.bind_some, leads]
    exact resolver.after?_none rest

theorem exists_follow_of_append {key type : String} {before later : List String}
    {marker? : Option String} (keeps : Segment.Keeps known before) (start : known conditions)
    (reached : resolver.after? owner before = some type) (more : later ≠ [])
    (walked : follow resolver scope parent key value below (before ++ later) owner marker?
      conditions = .ok (after, steps)) :
    ∃ between started outcome, known started ∧
      follow resolver scope parent key value below later (some type) between started =
        .ok outcome := by
  induction before generalizing owner marker? conditions steps with
  | nil =>
    cases reached
    exact ⟨marker?, conditions, _, start, walked⟩
  | cons segment rest ih =>
    rcases follow_cons_cases walked with ⟨next, _, passes, walkedRest⟩ | ⟨stops, _⟩
    · have leads : resolver.after? next.owner rest = some type :=
        (passes.after? rest).symm.trans reached
      exact ih keeps.tail (passes.keeps keeps start) leads walkedRest
    · have ended : resolver.after? owner (segment :: rest) = none := stops.after? more
      rw [ended] at reached
      contradiction

theorem exists_follow_of_key {key : Yaml} {name type segment : String} {before later : List String}
    {outcome : Conditions × List Step} (named : key.text? = some name)
    (path : Segment.path name = before ++ segment :: later)
    (free : Segment.isHoisted name = false) (keeps : Segment.Keeps known before)
    (start : known conditions)
    (reached : resolver.after? owner before = some type)
    (walked : Walk.key resolver scope owner parent conditions key value below = .ok outcome) :
    ∃ between started outcome, known started ∧
      follow resolver scope parent name value below (segment :: later) (some type) between started =
        .ok outcome := by
  obtain ⟨text, read, walkedText⟩ := Except.bind_eq_ok_iff.mp walked
  cases Option.some.inj (named.symm.trans (Scope.keyName_eq_ok_iff.mp read))
  rw [if_neg (Bool.eq_false_iff.mp free), path] at walkedText
  exact exists_follow_of_append keeps start reached (List.cons_ne_nil segment later) walkedText

theorem exists_level_of_follow {key field type : String} {marker? : Option String} {sub : Tree}
    {outcome : Conditions × List Step} (plain : Segment.IsField field)
    (walked : follow resolver scope parent key (.mapping sub) (inside resolver scope (.mapping sub))
      [field] (some type) marker? conditions = .ok outcome) :
    ∃ condition own, level resolver scope (resolver.fieldType? type field) (some ⟨type, field⟩)
      condition sub = .ok own := by
  rw [follow, plain] at walked
  obtain ⟨condition, _, walkedField⟩ := Except.bind_eq_ok_iff.mp walked
  obtain ⟨own, descended, _⟩ := Except.bind_eq_ok_iff.mp walkedField
  rw [descend_mapping] at descended
  exact ⟨condition, own, descended⟩

/-- Every level that the walk of a level comes to is walked. -/
theorem exists_level_of_reaches {found : Option String} {tree again : Tree}
    {inherited : Option String} (reaches : Reaches resolver owner tree found again)
    (walked : level resolver scope owner parent inherited tree = .ok steps) :
    ∃ above condition own, level resolver scope found above condition again = .ok own := by
  induction reaches generalizing parent inherited steps with
  | self => exact ⟨parent, inherited, steps, walked⟩
  | @inside owner found tree sub again key name field type before pair named path plain owned _ ih =>
    obtain ⟨earlier, later, rfl⟩ := List.append_of_mem pair
    obtain ⟨_, _, _, walkedKey⟩ := exists_key_of_level (Tree.keeps_trivial true _)
      (Tree.keeps_trivial false earlier) True.intro walked
    have last : field ∈ Segment.path name := by
      rw [path]
      exact List.mem_append_right _ (List.mem_singleton_self field)
    have free := Segment.not_isHoisted_of_mem_path last (.inr plain)
    obtain ⟨_, _, _, _, walkedField⟩ :=
      exists_follow_of_key named path free (.trivial _) True.intro owned walkedKey
    obtain ⟨_, _, walkedSub⟩ := exists_level_of_follow plain walkedField
    exact ih walkedSub

end Walk

end Visibility
