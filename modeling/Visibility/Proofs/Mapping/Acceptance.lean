import Visibility.Proofs.Mapping.Hoisting
import Visibility.Proofs.Mapping.Merging

set_option autoImplicit false
set_option relaxedAutoImplicit false

/-!
Which definitions are accepted.

A level is well-formed by its place, by the values of its directives, by the markers that are used on
it, and by what stands below its paths; nothing is asked of what no known type leads to.  The main
statement is that a definition of regular trees has tables exactly where all its trees are well-formed.
-/

namespace Visibility

namespace Segment

/-- Directives that are applied to the attribute around their level. -/
def ActsAround (key : String) : Prop :=
  key = securityKey ∨ Text.startsWith "_maxDepth" key = true ∨
    Text.startsWith "_serializedName" key = true ∨ Text.startsWith "_ignore" key = true

end Segment

/-- What a key asks of its value, whatever tags stand before the value. -/
structure Yaml.Suits (value : Yaml) (key : String) : Prop where
  expression : key = Segment.securityKey ∨ Text.startsWith Segment.namedSecurityLead key = true →
    value.HasExpression
  depth : Text.startsWith "_maxDepth" key = true →
    ∃ depth, value.nat? = some depth ∧ depth < 0x100000000
  name : Text.startsWith "_serializedName" key = true → ∃ name, value.text? = some name
  flag : Text.startsWith "_ignore" key = true → ∃ flag, value.bool? = some flag

namespace Tree

/-- The value of a key whose path leads from a type to a last field: all fields before it lead to a
type. -/
def EndsAt (tree : Tree) (resolver : Resolver) (type : String) (ref : FieldRef) (value : Yaml) :
    Prop :=
  ∃ key marker? fields, (.string key, value) ∈ tree ∧ Segment.Spells key marker? fields ∧
    (ref, true) ∈ resolver.visits type fields

/-- Levels of the owner's fields that can be walked.  A root has no attribute around it. -/
inductive WellFormed (resolver : Resolver) : Bool → Option String → Tree → Prop where
  | intro {root : Bool} {owner : Option String} {tree : Tree}
      (placed : root = true → ∀ key value, (.string key, value) ∈ tree → ¬ Segment.ActsAround key)
      (suited : ∀ key value, (.string key, value) ∈ tree → value.Suits key)
      -- a marker is used where its key of the same level defines it
      (marked : owner.isSome → ∀ key value marker fields, (.string key, value) ∈ tree →
        Segment.Spells key (some marker) fields →
          ∃ expression, (.string (Segment.securityKey ++ marker), expression) ∈ tree)
      (held : ∀ type ∈ owner, ∀ ref value, tree.EndsAt resolver type ref value →
        value = .null ∨ ∃ sub, value = .mapping sub)
      (deeper : ∀ type ∈ owner, ∀ ref sub, tree.EndsAt resolver type ref (.mapping sub) → sub ≠ [] →
        WellFormed resolver false (resolver.fieldType? ref.owner ref.field) sub) :
      WellFormed resolver root owner tree

theorem wellFormed_nil {resolver : Resolver} {root : Bool} {owner : Option String} :
    WellFormed resolver root owner [] := by
  have nowhere {type : String} {ref : FieldRef} {value : Yaml} :
      ¬ EndsAt [] resolver type ref value := by
    rintro ⟨key, _, _, present, -, -⟩
    contradiction
  refine .intro ?_ ?_ ?_ ?_ ?_
  · intro _ key value present
    contradiction
  · intro key value present
    contradiction
  · intro _ key value marker fields present
    contradiction
  · intro type _ ref value ends
    exact absurd ends nowhere
  · intro type _ ref sub ends
    exact absurd ends nowhere

end Tree

namespace Segment

theorem Spells.not_startsWith {key : String} {marker? : Option String} {fields : List String}
    (spelled : Spells key marker? fields) {lead : String} (undotted : '.' ∉ lead.toList)
    (acts : ∀ segment, Text.startsWith lead segment = true →
      ¬ IsMarker segment ∧ ¬ IsField segment) :
    ¬ Text.startsWith lead key = true := by
  intro starts
  have apart : ∀ c ∈ lead.toList, decide (c = '.') = false := by
    intro c present
    rw [decide_eq_false_iff_not]
    rintro rfl
    exact undotted present
  obtain ⟨rest, spelledKey⟩ := Text.startsWith_iff.mp starts
  obtain ⟨first, others, split, startsFirst⟩ :=
    Text.prefix_head_splitAt apart ⟨rest, spelledKey.symm⟩
  have startsSegment : Text.startsWith lead (String.ofList first) = true := by
    obtain ⟨more, rfl⟩ := startsFirst
    exact Text.startsWith_iff.mpr ⟨more, String.toList_ofList⟩
  obtain ⟨notMarker, notField⟩ := acts _ startsSegment
  have path : Segment.path key = String.ofList first :: others.map String.ofList := by
    rw [Segment.path, split, List.map_cons]
  rw [spelled.path] at path
  cases marker? with
  | none =>
    have isFirst : String.ofList first ∈ fields := by
      have same : fields = String.ofList first :: others.map String.ofList := path
      rw [same]
      exact List.mem_cons_self
    exact notField (spelled.plain _ isFirst)
  | some marker =>
    obtain ⟨rfl, -⟩ := List.cons.inj path
    exact notMarker (spelled.marked _ rfl)

theorem not_startsWith_of_apart {first second key : String}
    (apart : ¬ first.toList <+: second.toList ∧ ¬ second.toList <+: first.toList)
    (starts : Text.startsWith first key = true) : ¬ Text.startsWith second key = true := by
  intro also
  obtain ⟨rest, spelled⟩ := Text.startsWith_iff.mp starts
  obtain ⟨more, spelledAlso⟩ := Text.startsWith_iff.mp also
  rcases List.prefix_or_prefix_of_prefix ⟨rest, spelled.symm⟩ ⟨more, spelledAlso.symm⟩ with
    before | after
  · exact apart.1 before
  · exact apart.2 after

theorem classify_eq_limit_iff (segment : String) :
    (classify segment = .maxDepth ↔ Text.startsWith "_maxDepth" segment = true) ∧
      (classify segment = .serializedName ↔ Text.startsWith "_serializedName" segment = true) ∧
      (classify segment = .ignore ↔ Text.startsWith "_ignore" segment = true) := by
  have security (lead : String) (other : Text.startsWith lead securityKey = false)
      (apart : ¬ lead.toList <+: namedSecurityLead.toList ∧
        ¬ namedSecurityLead.toList <+: lead.toList)
      (starts : Text.startsWith lead segment = true) :
      ¬ Text.startsWith namedSecurityLead segment = true ∧ segment ≠ securityKey := by
    refine ⟨not_startsWith_of_apart apart starts, ?_⟩
    rintro rfl
    rw [other] at starts
    contradiction
  have depth := security "_maxDepth" (by decide +kernel) (by decide)
  have name := security "_serializedName" (by decide +kernel) (by decide)
  have flag := security "_ignore" (by decide +kernel) (by decide)
  have nameApart : Text.startsWith "_serializedName" segment = true →
      ¬ Text.startsWith "_maxDepth" segment = true := not_startsWith_of_apart (by decide)
  have flagApart : Text.startsWith "_ignore" segment = true →
      ¬ Text.startsWith "_maxDepth" segment = true := not_startsWith_of_apart (by decide)
  have flagApartName : Text.startsWith "_ignore" segment = true →
      ¬ Text.startsWith "_serializedName" segment = true := not_startsWith_of_apart (by decide)
  unfold classify
  split_ifs <;> simp_all

theorem Spells.not_acts {key : String} {marker? : Option String} {fields : List String}
    (spelled : Spells key marker? fields) : ¬ ActsAround key ∧ ∀ value : Yaml, value.Suits key := by
  have free := Bool.eq_false_iff.mp spelled.not_isHoisted
  have notOwn : key ≠ securityKey := fun same => free (isHoisted_iff.mpr (.inl same))
  -- a segment with one of these leads is a directive
  have acts (lead : String) (undotted : '.' ∉ lead.toList)
      (classified : ∀ segment, Text.startsWith lead segment = true →
        (∃ marker, classify segment = .namedSecurity marker) ∨ classify segment = .maxDepth ∨
          classify segment = .serializedName ∨ classify segment = .ignore) :
      ¬ Text.startsWith lead key = true := by
    refine spelled.not_startsWith undotted fun segment starts => ?_
    rcases classified segment starts with ⟨_, same⟩ | same | same | same
    all_goals exact ⟨fun marked => by simp [IsMarker, same] at marked,
      fun plain => by simp [IsField, same] at plain⟩
  have notNamed := acts namedSecurityLead (by decide) fun segment starts =>
    .inl ⟨_, classify_eq_namedSecurity_iff.mpr ⟨starts, rfl⟩⟩
  have notDepth := acts "_maxDepth" (by decide) fun segment starts =>
    .inr (.inl ((classify_eq_limit_iff segment).1.mpr starts))
  have notName := acts "_serializedName" (by decide) fun segment starts =>
    .inr (.inr (.inl ((classify_eq_limit_iff segment).2.1.mpr starts)))
  have notFlag := acts "_ignore" (by decide) fun segment starts =>
    .inr (.inr (.inr ((classify_eq_limit_iff segment).2.2.mpr starts)))
  constructor
  · rintro (own | depth | name | flag)
    · exact notOwn own
    · exact notDepth depth
    · exact notName name
    · exact notFlag flag
  · intro value
    refine ⟨?_, fun starts => absurd starts notDepth, fun starts => absurd starts notName,
      fun starts => absurd starts notFlag⟩
    rintro (own | named)
    · exact absurd own notOwn
    · exact absurd named notNamed

theorem acts_of_isHoisted {key : String} (hoisted : isHoisted key = true) :
    (ActsAround key ↔ key = securityKey) ∧
      ∀ value : Yaml, value.Suits key ↔ value.HasExpression := by
  have apart (lead : String) (other : Text.startsWith lead securityKey = false)
      (apart : ¬ namedSecurityLead.toList <+: lead.toList ∧
        ¬ lead.toList <+: namedSecurityLead.toList) : ¬ Text.startsWith lead key = true := by
    rcases isHoisted_iff.mp hoisted with rfl | ⟨named, -⟩
    · exact Bool.eq_false_iff.mp other
    · exact not_startsWith_of_apart apart named
  have notDepth := apart "_maxDepth" (by decide +kernel) (by decide)
  have notName := apart "_serializedName" (by decide +kernel) (by decide)
  have notFlag := apart "_ignore" (by decide +kernel) (by decide)
  have secures : key = securityKey ∨ Text.startsWith namedSecurityLead key = true :=
    (isHoisted_iff.mp hoisted).imp_right And.left
  constructor
  · simp [ActsAround, notDepth, notName, notFlag]
  · intro value
    constructor
    · intro suits
      exact suits.expression secures
    · intro filled
      exact ⟨fun _ => filled, fun starts => absurd starts notDepth,
        fun starts => absurd starts notName, fun starts => absurd starts notFlag⟩

theorem acts_of_limit {key : String} (directive : IsDirective key) (free : isHoisted key = false) :
    ActsAround key ∧ ∀ value : Yaml, value.Suits key ↔
      (classify key = .maxDepth → ∃ depth, value.nat? = some depth ∧ depth < 0x100000000) ∧
        (classify key = .serializedName → ∃ name, value.text? = some name) ∧
        (classify key = .ignore → ∃ flag, value.bool? = some flag) := by
  obtain ⟨depth, name, flag⟩ := classify_eq_limit_iff key
  have undotted : '.' ∉ key.toList :=
    not_dot_of_mem_path (by rw [directive.1]; exact List.mem_cons_self)
  have notSecure : ¬ (key = securityKey ∨ Text.startsWith namedSecurityLead key = true) := by
    rw [Bool.eq_false_iff, Ne, isHoisted_iff] at free
    exact fun secures => free (secures.imp_right fun named => ⟨named, undotted⟩)
  constructor
  · have limits := directive.classify_of_not_isHoisted free
    rw [depth, name, flag] at limits
    exact .inr limits
  · intro value
    rw [depth, name, flag]
    constructor
    · intro suits
      exact ⟨suits.depth, suits.name, suits.flag⟩
    · rintro ⟨givenDepth, givenName, givenFlag⟩
      exact ⟨fun secures => absurd secures notSecure, givenDepth, givenName, givenFlag⟩

end Segment

namespace Walk

variable {resolver : Resolver} {scope : Scope} {owner : Option String} {parent : Option FieldRef}
  {conditions : Conditions} {name : String} {value : Yaml}

private theorem exists_limit_iff (limit : FieldRef → Step) :
    (∃ steps, ((do
      let ref ← scope.enclosing parent name
      let (conditions, more) ← (.ok (conditions, []) : Except MappingError (Conditions × List Step))
      return (conditions, limit ref :: more)).map Prod.snd) = .ok steps) ↔ parent.isSome := by
  cases parent with
  | none => simp [Scope.enclosing, Bind.bind, Except.bind, Except.map]
  | some ref => simp [Scope.enclosing, Bind.bind, Except.bind, Except.map, Pure.pure, Except.pure]

theorem exists_keySteps_limit_iff (directive : Segment.IsDirective name)
    (free : Segment.isHoisted name = false) :
    (∃ steps, keySteps resolver scope owner parent conditions (.string name, value) = .ok steps) ↔
      parent.isSome ∧ value.Suits name := by
  rw [(Segment.acts_of_limit directive free).2 value]
  rcases directive.classify_of_not_isHoisted free with classified | classified | classified
  all_goals
    simp only [keySteps, key_of_not_isHoisted free, directive.1, follow, classified, reduceCtorEq,
      false_imp_iff, true_imp_iff, and_true, true_and]
  · cases value.nat? with
    | none => simp [Scope.malformed, Bind.bind, Except.bind, Except.map]
    | some depth =>
      by_cases small : depth < 0x100000000
      · have fits : ∃ given, some depth = some given ∧ given < 0x100000000 := ⟨depth, rfl, small⟩
        simp only [if_pos small, Except.ok_bind, fits, and_true]
        exact exists_limit_iff (.maxDepth · depth)
      · have beyond : ¬ ∃ given, some depth = some given ∧ given < 0x100000000 := by
          rintro ⟨_, ⟨⟩, fits⟩
          exact small fits
        simp only [if_neg small, beyond, and_false, iff_false]
        rintro ⟨steps, walked⟩
        contradiction
  · cases value.text? with
    | none => simp [Scope.malformed, Bind.bind, Except.bind, Except.map]
    | some title =>
      simp only [Except.ok_bind, Option.some.injEq, exists_eq', and_true]
      exact exists_limit_iff (.serializedName · title)
  · cases value.bool? with
    | none => simp [Scope.malformed, Bind.bind, Except.bind, Except.map]
    | some flag =>
      simp only [Except.ok_bind, Option.some.injEq, exists_eq', and_true]
      exact exists_limit_iff (.ignore · flag)

theorem exists_descend_iff (key : String) {next condition : Option String} {ref : FieldRef} :
    (∃ steps, descend scope key value (inside resolver scope value) next condition ref =
      .ok steps) ↔
      value = .null ∨ ∃ sub, value = .mapping sub ∧
        ∃ steps, level resolver scope next (some ref) condition sub = .ok steps := by
  cases value with
  | mapping sub =>
    rw [descend_mapping]
    simp
  | _ => simp [descend, Scope.malformed]

theorem exists_keySteps_spelled_iff {type : String} {marker? : Option String}
    {fields : List String} (spelled : Segment.Spells name marker? fields) :
    (∃ steps, keySteps resolver scope (some type) parent conditions (.string name, value) =
      .ok steps) ↔
      ∃ condition, conditions.ofMarker scope marker? = .ok condition ∧
        ∀ ref, (ref, true) ∈ resolver.visits type fields →
          value = .null ∨ ∃ sub, value = .mapping sub ∧
            ∃ steps, level resolver scope (resolver.fieldType? ref.owner ref.field) (some ref)
              condition sub = .ok steps := by
  have visiting (condition : Option String) :
      (∃ steps, collect (visitSteps resolver scope name value (inside resolver scope value)
        condition) (resolver.visits type fields) = .ok steps) ↔
        ∀ ref, (ref, true) ∈ resolver.visits type fields →
          ∃ steps, descend scope name value (inside resolver scope value)
            (resolver.fieldType? ref.owner ref.field) condition ref = .ok steps := by
    rw [exists_collect_iff]
    constructor
    · intro each ref last
      obtain ⟨steps, visited⟩ := each _ last
      obtain ⟨more, descended, -⟩ := visitSteps_eq_ok_iff.mp visited
      exact ⟨more, descended⟩
    · rintro each ⟨ref, last⟩ present
      cases last with
      | false => exact ⟨_, visitSteps_eq_ok_iff.mpr ⟨[], rfl, rfl⟩⟩
      | true =>
        obtain ⟨more, descended⟩ := each ref present
        exact ⟨_, visitSteps_eq_ok_iff.mpr ⟨more, descended, rfl⟩⟩
  simp only [← exists_descend_iff name, ← visiting]
  rw [keySteps, key_of_spelled spelled]
  simp only [Except.map_eq_ok_iff, Except.bind_eq_ok_iff, Except.pure_eq_ok_iff]
  constructor
  · rintro ⟨steps, outcome, ⟨condition, marked, walked, collected, rfl⟩, rfl⟩
    exact ⟨condition, marked, walked, collected⟩
  · rintro ⟨condition, marked, steps, collected⟩
    exact ⟨steps, (conditions, steps), ⟨condition, marked, steps, collected, rfl⟩, rfl⟩

/-- A level can be walked where its security keys can be applied and then each of its keys can be
walked. -/
theorem exists_level_iff {tree : Tree} (regular : tree.RegularKeys) {inherited : Option String} :
    (∃ steps, level resolver scope owner parent inherited tree = .ok steps) ↔
      ∃ after own, hoisted scope parent inherited tree = .ok (after, own) ∧
        ∀ pair ∈ tree, ∃ steps, keySteps resolver scope owner parent after pair = .ok steps := by
  simp only [level_eq_ok_iff, keys_of_regular regular.spelled, ← exists_collect_iff]
  constructor
  · rintro ⟨_, after, own, more, applied, walked, -⟩
    exact ⟨after, own, applied, more, walked⟩
  · rintro ⟨after, own, applied, more, walked⟩
    exact ⟨own ++ more, after, own, more, applied, walked, rfl⟩

theorem suits_of_level {tree : Tree} (regular : tree.RegularKeys) {after : Conditions}
    {own : List Step} {inherited : Option String}
    (applied : hoisted scope parent inherited tree = .ok (after, own))
    (each : ∀ pair ∈ tree, ∃ steps, keySteps resolver scope owner parent after pair = .ok steps)
    (pair : (.string name, value) ∈ tree) :
    (Segment.ActsAround name → parent.isSome) ∧ value.Suits name := by
  have filled := (exists_hoisted_iff regular.named).mp ⟨_, applied⟩
  obtain ⟨_, ⟨⟩, directive | ⟨marker?, fields, spelled⟩⟩ := regular.spelled _ value pair
  · cases hoisted : Segment.isHoisted name with
    | true =>
      obtain ⟨expression, around⟩ := filled name value pair hoisted
      obtain ⟨acts, suits⟩ := Segment.acts_of_isHoisted hoisted
      exact ⟨fun here => around (acts.mp here), (suits value).mpr expression⟩
    | false =>
      obtain ⟨around, suits⟩ := (exists_keySteps_limit_iff directive hoisted).mp (each _ pair)
      exact ⟨fun _ => around, suits⟩
  · obtain ⟨acts, suits⟩ := spelled.not_acts
    exact ⟨fun here => absurd here acts, suits value⟩

theorem wellFormed_of_level (tree : Tree) (regular : tree.Regular) {inherited : Option String}
    {steps : List Step}
    (walked : level resolver scope owner parent inherited tree = .ok steps) :
    tree.WellFormed resolver parent.isNone owner := by
  induction tree using Tree.induct generalizing owner parent inherited steps with
  | step tree ih =>
    obtain ⟨after, own, applied, each⟩ := (exists_level_iff regular.keys).mp ⟨steps, walked⟩
    have directives (key : String) (value : Yaml) (pair : (.string key, value) ∈ tree) :=
      suits_of_level regular.keys applied each pair
    have ends (type : String) (known : owner = some type) (ref : FieldRef) (value : Yaml)
        (here : tree.EndsAt resolver type ref value) :
        value = .null ∨ ∃ sub, value = .mapping sub ∧
          Tree.WellFormed resolver false (resolver.fieldType? ref.owner ref.field) sub := by
      obtain ⟨key, marker?, fields, pair, spelled, last⟩ := here
      subst known
      obtain ⟨condition, -, visited⟩ := (exists_keySteps_spelled_iff spelled).mp (each _ pair)
      rcases visited ref last with nothing | ⟨sub, rfl, more, walkedSub⟩
      · exact .inl nothing
      · exact .inr ⟨sub, rfl, ih _ sub pair (regular.inside pair) walkedSub⟩
    refine .intro ?_ ?_ ?_ ?_ ?_
    · intro root key value pair here
      have around := (directives key value pair).1 here
      rw [Option.isNone_iff_eq_none.mp root] at around
      contradiction
    · intro key value pair
      exact (directives key value pair).2
    · intro known key value marker fields pair spelled
      obtain ⟨type, rfl⟩ := Option.isSome_iff_exists.mp known
      obtain ⟨condition, marked, -⟩ := (exists_keySteps_spelled_iff spelled).mp (each _ pair)
      exact (exists_ofMarker_iff regular.keys applied spelled).mp ⟨condition, marked⟩ marker rfl
    · intro type known ref value here
      rcases ends type known ref value here with nothing | ⟨sub, same, -⟩
      · exact .inl nothing
      · exact .inr ⟨sub, same⟩
    · intro type known ref sub here _
      rcases ends type known ref _ here with contrary | ⟨_, same, wellFormed⟩
      · contradiction
      · cases same
        exact wellFormed

theorem exists_level_of_wellFormed (tree : Tree) (regular : tree.Regular)
    {inherited : Option String} (wellFormed : tree.WellFormed resolver parent.isNone owner) :
    ∃ steps, level resolver scope owner parent inherited tree = .ok steps := by
  induction tree using Tree.induct generalizing owner parent inherited with
  | step tree ih =>
    obtain ⟨placed, suited, marked, held, deeper⟩ := wellFormed
    have around (key : String) (value : Yaml) (pair : (.string key, value) ∈ tree)
        (acts : Segment.ActsAround key) : parent.isSome := by
      rw [← Option.not_isNone, Bool.not_eq_true']
      exact Bool.eq_false_iff.mpr fun root => placed root key value pair acts
    obtain ⟨⟨after, own⟩, applied⟩ :
        ∃ outcome, hoisted scope parent inherited tree = .ok outcome := by
      rw [exists_hoisted_iff regular.keys.named]
      intro key value pair hoisted
      obtain ⟨acts, suits⟩ := Segment.acts_of_isHoisted hoisted
      have filled := (suits value).mp (suited key value pair)
      exact ⟨filled, fun same => around key value pair (acts.mpr same)⟩
    rw [exists_level_iff regular.keys]
    refine ⟨after, own, applied, ?_⟩
    rintro ⟨key, value⟩ pair
    obtain ⟨name, rfl, directive | ⟨marker?, fields, spelled⟩⟩ := regular.keys.spelled _ value pair
    · cases hoisted : Segment.isHoisted name with
      | true => exact ⟨[], by rw [keySteps, key_of_isHoisted hoisted]; rfl⟩
      | false =>
        rw [exists_keySteps_limit_iff directive hoisted]
        have acts := (Segment.acts_of_limit directive hoisted).1
        exact ⟨around name value pair acts, suited name value pair⟩
    · cases owner with
      | none => exact ⟨[], by rw [keySteps, key_of_spelled_none spelled]; rfl⟩
      | some type =>
        have defined : ∀ marker ∈ marker?,
            ∃ value, (.string (Segment.securityKey ++ marker), value) ∈ tree := by
          rintro marker ⟨⟩
          exact marked rfl name value marker fields pair spelled
        obtain ⟨condition, given⟩ := (exists_ofMarker_iff regular.keys applied spelled).mpr defined
        rw [exists_keySteps_spelled_iff spelled]
        refine ⟨condition, given, ?_⟩
        intro ref last
        have ends : tree.EndsAt resolver type ref value :=
          ⟨name, marker?, fields, pair, spelled, last⟩
        rcases held type rfl ref value ends with nothing | ⟨sub, rfl⟩
        · exact .inl nothing
        · have wellFormedSub :
              Tree.WellFormed resolver false (resolver.fieldType? ref.owner ref.field) sub := by
            by_cases empty : sub = []
            · rw [empty]
              exact Tree.wellFormed_nil
            · exact deeper type rfl ref sub ends empty
          exact .inr ⟨sub, rfl, ih _ sub pair (regular.inside pair) wellFormedSub⟩

end Walk

namespace Definition

variable {definition : Definition} {resolver : Resolver}

/-- A definition of regular trees has tables where each of its trees has a key and is well-formed, from
the type that it is declared for. -/
theorem exists_tables_iff_wellFormed (regular : definition.Regular) :
    (∃ tables, definition.tables resolver = .ok tables) ↔
      ∀ type group, ∀ tree ∈ definition.trees type group,
        tree ≠ [] ∧ Tree.WellFormed resolver true (some type) tree := by
  rw [exists_tables_iff]
  constructor
  · rintro ⟨steps, walked⟩ type group tree declared
    obtain ⟨filled, own, walkedTree⟩ := exists_level_of_steps walked declared
    have regularTree : tree.Regular := regular type group tree declared
    exact ⟨List.isEmpty_eq_false_iff.mp filled, Walk.wellFormed_of_level tree regularTree walkedTree⟩
  · intro each
    rw [steps_eq_collect, Walk.exists_collect_iff]
    intro part present
    cases part with
    | table type => exact ⟨_, rfl⟩
    | tree scope tree =>
      have declared := tree_mem_parts_iff.mp present
      obtain ⟨filled, wellFormed⟩ := each scope.root scope.group tree declared
      have regularTree : tree.Regular := regular scope.root scope.group tree declared
      rw [Walk.Part.steps, if_neg (by simpa using filled)]
      exact Walk.exists_level_of_wellFormed tree regularTree wellFormed

theorem wellFormed_guardedBooks : guardedBooks.Regular ∧
    ∀ type group, ∀ tree ∈ guardedBooks.trees type group,
      tree ≠ [] ∧ Tree.WellFormed bookResolver true (some type) tree := by
  have accepted : ∃ tables, guardedBooks.tables bookResolver = .ok tables :=
    exists_tables_guardedBooks
  exact ⟨regular_guardedBooks, (exists_tables_iff_wellFormed regular_guardedBooks).mp accepted⟩

end Definition

end Visibility
