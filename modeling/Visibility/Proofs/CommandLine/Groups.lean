import Visibility.CommandLine.Run
import Visibility.Proofs.Expression.Names
import Visibility.Proofs.Mapping.Guards
import Visibility.Proofs.Mapping.Walking
import Visibility.Proofs.Serialization.Building

set_option autoImplicit false
set_option relaxedAutoImplicit false

/-!
The groups that a command finds and those of a request.

A command takes every value for an instance, and a request only those that are true as a condition.
The main statement is that the two agree but for that: on a value that is not true as a condition, a
request has the groups that the command finds without an instance.
-/

namespace Visibility

theorem Environment.lookup_of_ne {name : String} (other : name ≠ "object") (env : Environment)
    (object : Option Json) : ({ env with object } : Environment).lookup name = env.lookup name := by
  unfold lookup
  split
  · contradiction
  · rfl
  · rfl
  · rfl

namespace GroupTag

/-- Whether the criteria of a tag, if it has any, take nothing from the instance. -/
def IgnoresInstance (tag : GroupTag) : Prop :=
  ∀ criteria, tag.criteria = some criteria → ¬ ReadsInstance criteria ∧
    ∀ expr, Expr.parse? criteria = some expr → ¬ expr.Mentions "object"

theorem IgnoresInstance.evaluate {tag : GroupTag} (ignores : tag.IgnoresInstance)
    {criteria : String} (given : tag.criteria = some criteria) (env : Environment)
    (object : Option Json) :
    evaluate criteria { env with object } = evaluate criteria env := by
  cases parsed : Expr.parse? criteria with
  | none => simp only [Visibility.evaluate, evaluateValue, Expr.parse, parsed]; rfl
  | some expr =>
    have same : expr.eval { env with object } = expr.eval env := by
      refine Expr.eval_congr (.inr rfl) fun name mentions => Environment.lookup_of_ne ?_ env object
      rintro rfl
      exact (ignores criteria given).2 expr parsed mentions
    rw [evaluate_of_parse? parsed, evaluate_of_parse? parsed, Expr.truth, Expr.truth, same]

end GroupTag

namespace GroupQuery

variable (query : GroupQuery)

theorem consider_of_ignoresInstance {tag : GroupTag} (ignores : tag.IgnoresInstance)
    (instance_ : Option Json) (others : ActiveGroups) :
    ({ query with instance_ } : GroupQuery).consider evaluate tag others =
      query.consider evaluate tag others := by
  unfold consider
  cases given : tag.criteria with
  | none => rfl
  | some criteria =>
    have needless : tag.needsInstance = false := by
      simpa [GroupTag.needsInstance, given, ReadsInstance] using (ignores criteria given).1
    have same := ignores.evaluate given query.environment instance_
    simp only [lacksInstance, needless, Bool.and_false, Bool.false_eq_true, if_false]
    rw [← same]
    rfl

theorem active_of_ignoresInstance {table : Table}
    (ignore : ∀ raw ∈ table.allGroups, (GroupTag.parse table.type raw).IgnoresInstance)
    (instance_ : Option Json) :
    ({ query with instance_ } : GroupQuery).active evaluate table = query.active evaluate table := by
  have among (candidates : List String)
      (ignore : ∀ raw ∈ candidates, (GroupTag.parse table.type raw).IgnoresInstance) :
      ({ query with instance_ } : GroupQuery).activeAmong evaluate table.type candidates =
        query.activeAmong evaluate table.type candidates := by
    induction candidates with
    | nil => rfl
    | cons first rest ih =>
      obtain ⟨here, later⟩ := List.forall_mem_cons.mp ignore
      rw [activeAmong, activeAmong, query.consider_of_ignoresInstance here, ih later]
  exact among table.allGroups.toList ignore

end GroupQuery

namespace CommandLine

/-- The builder that asks as a command does, with the evaluator that is always there. -/
def GroupsCommand.builder (command : GroupsCommand) (resources : Resources)
    (policy : DirectionPolicy) : ContextBuilder :=
  { resources, evaluator := evaluate, caller := callerOf command.roles, policy }

/-- On a value that is true as a condition, a request has the groups that the command finds on it; on
another value, those that the command finds without an instance.  The two are the same where the tags
of the type ignore the instance. -/
theorem map_groups_build_eq_activeGroups {registry : Registry} {table : Table}
    {resources : Resources} {request : Request} {given : Option Route} {route : Route}
    {command : GroupsCommand} {value : Json} (policy : DirectionPolicy)
    (tabled : registry.table? command.type = some table)
    (bare : resources.find? command.type = some {})
    (routed : request.routeOr given = .ok route) (sameType : route.resourceClass = command.type)
    (sameOperation : route.operation = command.operation)
    (data : request.attribute? "data" = some value) :
    let answer := ((command.builder resources policy).build registry request command.direction
      given).result.map (·.groups)
    let found instance_ := (activeGroups policy table command instance_).mapError
      ContextError.criteria
    (value.truthy → answer = found (some value)) ∧ (¬ value.truthy → answer = found none) ∧
      ((∀ raw ∈ table.allGroups, (GroupTag.parse table.type raw).IgnoresInstance) →
        answer = found (some value)) := by
  intro answer found
  have asked : answer = found request.data? := by
    have known : resources.find? route.resourceClass = some {} := sameType ▸ bare
    have groups : answer = _ := ContextBuilder.map_groups_build routed known
    rw [groups, ContextBuilder.activeGroups, sameType, tabled, sameOperation]
    rfl
  refine ⟨fun holds => ?_, fun fails => ?_, fun ignore => ?_⟩
  · rw [asked, Request.data?, data, Option.filter_some_pos holds]
  · rw [asked, Request.data?, data, Option.filter_some_neg (Bool.eq_false_iff.mpr fails)]
  · let alone : GroupQuery :=
      { operation := command.operation
        direction := command.direction
        policy
        caller := callerOf command.roles }
    have everywhere (instance_ : Option Json) :
        activeGroups policy table command instance_ = (alone.active evaluate table).result :=
      congrArg ActiveGroups.result (alone.active_of_ignoresInstance ignore instance_)
    simp only [asked, found, everywhere]

section Owned

def ownerTag : Tag := ⟨"Book", "item.normalization.get", some "object.owner == null"⟩

def ownedBooks : Definition :=
  Definition.empty.push "Book" "item.normalization.get"
    [(.string "title", .mapping [(.string "_security", .string "object.owner == null")])]

def ownedSteps : List Step :=
  [.table "Book", .entry ⟨"Book", "title"⟩, .tag ⟨"Book", "title"⟩ ownerTag, .catchAll ownerTag]

def ownedRegistry : Registry :=
  { tables := .ofSteps ownedSteps, mappedTypes := ["Book"] }

def ownedTable : Table :=
  (ownedRegistry.table? "Book").getD (.empty "Book")

theorem ofDefinition_ownedBooks :
    Registry.ofDefinition ownedBooks bookResolver = .ok ownedRegistry := by
  have walked : ownedBooks.steps bookResolver = .ok ownedSteps :=
    Except.toOption_eq_some_iff.mp (by decide +kernel)
  have built := Definition.tables_eq_ok_iff.mpr ⟨ownedSteps, walked, rfl⟩
  rw [Registry.ofDefinition, built]
  rfl

theorem table?_ownedRegistry : ownedRegistry.table? "Book" = some ownedTable :=
  (Option.getD_of_ne_none (Option.isSome_iff_ne_none.mp (by decide +kernel)) _).symm

def bareBooks : Resources := ⟨Dict.empty.insert "Book" {}⟩

def bookRequest (data : Json) : Request :=
  (Request.ofUri "GET" "/books/1").addAttribute "data" data

def bookRoute : Route := { resourceClass := "Book", operation := .item, operationName := "get" }

def bookCommand : GroupsCommand := { type := "Book", operation := .item }

def bookAnswer (registry : Registry) (data : Json) : Except ContextError (List String) :=
  ((bookCommand.builder bareBooks .asymmetric).build registry (bookRequest data)
    bookCommand.direction (some bookRoute)).result.map (·.groups)

def openTable : Table :=
  (Table.empty "Book").addCatchAll "Book:item.normalization.get"

def openRegistry : Registry :=
  { tables := Dict.empty.insert "Book" openTable }

theorem ignoresInstance_openTable :
    ∀ raw ∈ openTable.allGroups, (GroupTag.parse openTable.type raw).IgnoresInstance := by
  intro raw present criteria given
  cases List.mem_singleton.mp present
  have bare : (GroupTag.parse "Book" "Book:item.normalization.get").criteria = none := by
    decide +kernel
  cases bare.symm.trans given

theorem map_groups_build_eq_activeGroups_books :
    bookAnswer ownedRegistry (.object []) =
        (activeGroups .asymmetric ownedTable bookCommand (some (.object []))).mapError .criteria ∧
      bookAnswer ownedRegistry .null =
        (activeGroups .asymmetric ownedTable bookCommand none).mapError .criteria ∧
      bookAnswer openRegistry .null =
        (activeGroups .asymmetric openTable bookCommand (some .null)).mapError .criteria := by
  have agree (registry : Registry) (table : Table) (value : Json)
      (tabled : registry.table? "Book" = some table) :=
    @map_groups_build_eq_activeGroups registry table bareBooks (bookRequest value)
      (some bookRoute) bookRoute bookCommand value .asymmetric tabled rfl rfl rfl rfl rfl
  refine ⟨(agree _ _ _ table?_ownedRegistry).1 rfl, (agree _ _ _ table?_ownedRegistry).2.1 nofun, ?_⟩
  exact (agree _ _ .null rfl).2.2 ignoresInstance_openTable

/-- On `null` a command finds the tag for books without an owner, and a request does not have it. -/
theorem not_forall_answer_eq_activeGroups :
    ¬ ∀ (definition : Definition) (resolver : Resolver) (registry : Registry) (table : Table)
        (resources : Resources) (request : Request) (given : Option Route) (route : Route)
        (command : GroupsCommand) (value : Json) (policy : DirectionPolicy),
      Registry.ofDefinition definition resolver = .ok registry →
      registry.table? command.type = some table → resources.find? command.type = some {} →
      request.routeOr given = .ok route → route.resourceClass = command.type →
      route.operation = command.operation → request.attribute? "data" = some value →
      ((command.builder resources policy).build registry request command.direction
          given).result.map (·.groups) =
        (activeGroups policy table command (some value)).mapError .criteria := by
  intro same
  have answers := same ownedBooks bookResolver ownedRegistry ownedTable bareBooks
    (bookRequest .null) (some bookRoute) bookRoute bookCommand .null .asymmetric
    ofDefinition_ownedBooks table?_ownedRegistry rfl rfl rfl rfl rfl
  have found : ((activeGroups .asymmetric ownedTable bookCommand (some .null)).mapError
      ContextError.criteria).toOption = some [ownerTag.text] := by decide +kernel
  have answered : (bookAnswer ownedRegistry .null).toOption = some [] := by decide +kernel
  rw [← answers] at found
  cases found.symm.trans answered

end Owned

end CommandLine

end Visibility
