import Visibility.Proofs.Serialization.Building

set_option autoImplicit false
set_option relaxedAutoImplicit false

/-!
What of a context depends on who asks.

Two builders that know the same resources may differ in the caller, the evaluator, the direction policy
and the tables.  The main statement says that their contexts differ in the groups at most, and not at
all where the settings of the operation name groups.
-/

namespace Visibility

/-- Where a builder takes its tables from: a registry, or a slot that is filled on first use. -/
inductive TableSource where
  | ready (registry : Registry)
  | shared (slot : Slot) (init : Except MappingError Registry)

def TableSource.registry : TableSource → Except MappingError Registry
  | ready registry => .ok registry
  | shared slot init => (slot.getOrBuild init).1

/-- The groups that a value names: itself, or the texts of a list.  Empty texts name none, and a value
that names none is no setting. -/
inductive Json.NamesGroups : Json → List String → Prop
  | text {group : String} (nonempty : group ≠ "") : NamesGroups (.string group) [group]
  | list {items : List Json} {groups : List String}
      (named : (items.filterMap Json.string?).filter (!·.isEmpty) = groups) (nonempty : groups ≠ []) :
      NamesGroups (.array items) groups

theorem Settings.groups?_eq_some_iff {settings : Settings} {groups : List String} :
    settings.groups? = some groups ↔
      ∃ value, settings.get? "groups" = some value ∧ value.NamesGroups groups := by
  unfold groups?
  cases found : settings.get? "groups" with
  | none => simp
  | some value =>
    simp only [Option.some.injEq, exists_eq_left']
    constructor
    · intro configured
      cases value with
      | string group =>
        by_cases empty : group = ""
        · simp [empty] at configured
        · obtain rfl : [group] = groups := by simpa [empty] using configured
          exact .text empty
      | array items =>
        dsimp only at configured
        split at configured
        · contradiction
        · next nonempty =>
          cases configured
          exact .list rfl (by simpa using nonempty)
      | _ => simp at configured
    · intro names
      cases names with
      | text nonempty => simp [nonempty]
      | list named nonempty => simp only [named, List.isEmpty_iff, nonempty, if_false]

namespace ContextBuilder

variable {request : Request} {direction : Direction} {given : Option Route}

def buildOver (builder : ContextBuilder) (request : Request) (direction : Direction)
    (given : Option Route) : TableSource → BuiltContext
  | .ready registry => builder.build registry request direction given
  | .shared slot init => (builder.buildShared slot init request direction given).1

def evaluateOver (builder : ContextBuilder) (request : Request) (direction : Direction)
    (draft : ContextDraft) (tables : TableSource) : BuiltContext :=
  match tables.registry with
  | .ok registry => builder.evaluate registry request direction draft
  | .error cause => ⟨.error (.mapping cause), []⟩

theorem buildOver_eq (builder : ContextBuilder) (tables : TableSource) :
    builder.buildOver request direction given tables =
      match request.draft builder.resources direction given with
      | .error error => ⟨.error error, []⟩
      | .ok draft =>
        match draft.configuredGroups with
        | some groups => ⟨.ok (draft.withGroups groups), []⟩
        | none => builder.evaluateOver request direction draft tables := by
  cases drafted : request.draft builder.resources direction given with
  | error error => cases tables <;> simp only [buildOver, build, buildShared, drafted]
  | ok draft =>
    cases configured : draft.configuredGroups with
    | some groups => cases tables <;> simp only [buildOver, build, buildShared, drafted, configured]
    | none =>
      cases tables with
      | ready registry =>
        simp only [buildOver, build, drafted, configured, evaluateOver, TableSource.registry]
      | shared slot init =>
        simp only [buildOver, buildShared, drafted, configured, evaluateOver, TableSource.registry]
        cases (slot.getOrBuild init).1 with
        | ok registry => rfl
        | error cause => rfl

theorem exists_of_evaluateOver {builder : ContextBuilder} {draft : ContextDraft}
    {tables : TableSource} {context : SerializationContext}
    (built : (builder.evaluateOver request direction draft tables).result = .ok context) :
    ∃ groups, draft.withGroups groups = context := by
  unfold evaluateOver at built
  split at built
  · unfold evaluate at built
    dsimp only at built
    split at built
    · next groups _ => exact ⟨groups, Except.ok.inj built⟩
    · contradiction
  · contradiction

theorem exists_of_buildOver {builder : ContextBuilder} {tables : TableSource}
    {context : SerializationContext}
    (built : (builder.buildOver request direction given tables).result = .ok context) :
    ∃ draft groups, request.draft builder.resources direction given = .ok draft ∧
      draft.withGroups groups = context := by
  rw [buildOver_eq] at built
  split at built
  · contradiction
  · next draft drafted =>
    split at built
    · next groups _ => exact ⟨draft, groups, drafted, Except.ok.inj built⟩
    · obtain ⟨groups, same⟩ := exists_of_evaluateOver built
      exact ⟨draft, groups, drafted, same⟩

/-- Two builders that know the same resources build contexts that differ in the groups at most.  Where
the settings that apply to the operation name groups, both build one context with these groups, and
ask nothing about the caller. -/
theorem buildOver_agrees {first second : ContextBuilder}
    (same : first.resources = second.resources) (tables others : TableSource) (request : Request)
    (direction : Direction) (given : Option Route) :
    (∀ context other, (first.buildOver request direction given tables).result = .ok context →
        (second.buildOver request direction given others).result = .ok other →
          { context with groups := other.groups } = other) ∧
      ∀ route resource value groups, request.routeOr given = .ok route →
        first.resources.find? route.resourceClass = some resource →
          (Settings.ofRoute resource route direction).get? "groups" = some value →
            value.NamesGroups groups →
              ∃ context, context.groups = groups ∧
                first.buildOver request direction given tables = ⟨.ok context, []⟩ ∧
                  second.buildOver request direction given others = ⟨.ok context, []⟩ := by
  constructor
  · intro context other built builtOther
    obtain ⟨draft, groups, drafted, rfl⟩ := exists_of_buildOver built
    obtain ⟨draft', otherGroups, drafted', rfl⟩ := exists_of_buildOver builtOther
    rw [← same, drafted, Except.ok.injEq] at drafted'
    subst drafted'
    obtain ⟨route, resource, _, _, rfl⟩ := Request.draft_eq_ok_iff.mp drafted
    rfl
  · intro route resource value groups routed found set_ names
    have drafted : request.draft first.resources direction given =
        .ok (ContextDraft.ofRoute request resource direction route) :=
      Request.draft_eq_ok_iff.mpr ⟨route, resource, routed, found, rfl⟩
    have configured :
        (ContextDraft.ofRoute request resource direction route).configuredGroups = some groups :=
      Settings.groups?_eq_some_iff.mpr ⟨value, set_, names⟩
    refine ⟨(ContextDraft.ofRoute request resource direction route).withGroups groups, rfl, ?_, ?_⟩
    · rw [buildOver_eq, drafted]
      simp only [configured]
    · rw [buildOver_eq, ← same, drafted]
      simp only [configured]

section ReadBooks

def readBooks : Resource :=
  { attributes := Dict.empty.insert "normalization_context"
      (.object [("groups", .array [.string "", .string "read", .null, .string "list"])]) }

def readResources : Resources := ⟨Dict.empty.insert "Book" readBooks⟩

def visitorBuilder : ContextBuilder :=
  { resources := readResources
    evaluator := Visibility.evaluate
    caller := RoleHolder.anonymous.toCaller }

def adminBuilder : ContextBuilder :=
  { resources := readResources
    evaluator := fun _ _ => ⟨.ok true, []⟩
    caller := (RoleHolder.anonymous.withRole "ROLE_ADMIN").toCaller
    policy := .symmetric }

def readRequest : Request := .ofUri "PUT" "/books/1"

def readRoute : Route := { resourceClass := "Book", operation := .item, operationName := "get" }

def writtenTables : TableSource :=
  .shared ⟨none⟩ (.ok
    { tables := Dict.empty.insert "Book"
        ((Table.empty "Book").addCatchAll "Book:item.denormalization.put") })

/-- The two builders give a written book different groups, and nothing else; a book that is read has
the groups of the settings, also without any tables. -/
theorem buildOver_agrees_readBooks :
    (∃ context other,
      (visitorBuilder.buildOver readRequest .denormalization (some readRoute)
        (.ready {})).result = .ok context ∧
      (adminBuilder.buildOver readRequest .denormalization (some readRoute)
        writtenTables).result = .ok other ∧
      context.groups = [] ∧ other.groups = ["Book:item.denormalization.put"] ∧
      { context with groups := other.groups } = other) ∧
    ∃ context, context.groups = ["read", "list"] ∧
      visitorBuilder.buildOver readRequest .normalization (some readRoute)
        (.shared ⟨none⟩ (.error (.notLocalFile "none"))) = ⟨.ok context, []⟩ ∧
      adminBuilder.buildOver readRequest .normalization (some readRoute) writtenTables =
        ⟨.ok context, []⟩ := by
  constructor
  · refine ⟨_, _, rfl, rfl, rfl, rfl, ?_⟩
    exact (@buildOver_agrees visitorBuilder adminBuilder rfl (.ready {})
      writtenTables readRequest .denormalization (some readRoute)).1 _ _ rfl rfl
  · exact (@buildOver_agrees visitorBuilder adminBuilder rfl _
      writtenTables readRequest .normalization (some readRoute)).2 readRoute readBooks
        (.array [.string "", .string "read", .null, .string "list"]) ["read", "list"] rfl rfl rfl
        (.list (by decide +kernel) (by decide))

end ReadBooks

end ContextBuilder

end Visibility
