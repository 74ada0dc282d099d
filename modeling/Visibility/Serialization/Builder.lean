import Visibility.Mapping.Registry
import Visibility.Serialization.Context

set_option autoImplicit false
set_option relaxedAutoImplicit false

/-!
From a request to its serialization context.

Everything but the groups follows from the request and the resources alone.  The groups are those
that the operation's settings name; without any, they are the tags that are active for the request.
-/

namespace Visibility

inductive ContextError where
  | invalidRequest (cause : RouteError)
  | unknownResource (name : String)
  | criteria (cause : CriteriaError)
  | mapping (cause : MappingError)

namespace ContextError

def status : ContextError → Nat
  | invalidRequest _ => 400
  | unknownResource _ => 404
  | criteria _ => 500
  | mapping _ => 500

def message : ContextError → String
  | invalidRequest cause => "request attributes are not valid: " ++ cause.message
  | unknownResource name => "no resource metadata for \"" ++ name ++ "\""
  | criteria cause =>
    "cannot evaluate criteria \"" ++ cause.criteria ++ "\": " ++ cause.source.message
  | mapping cause => "mapping load failed: " ++ cause.message

end ContextError

/-- Settings of an operation for one direction. -/
abbrev Settings := Dict Json

namespace Settings

def bool? (settings : Settings) (key : String) : Option Bool :=
  (settings.get? key).bind Json.bool?

def keyOf : Direction → String
  | .normalization => "normalization_context"
  | .denormalization => "denormalization_context"

/-- The settings that apply to an operation; without a map there are none. -/
def ofRoute (resource : Resource) (route : Route) (direction : Direction) : Settings :=
  match resource.attribute? route.operation route.operationName (keyOf direction) with
  | some (.object fields) => Dict.ofList fields
  | _ => .empty

def groups? (settings : Settings) : Option (List String) :=
  let named := match settings.get? "groups" with
    | some (.string group) => [group]
    | some (.array items) => items.filterMap Json.string?
    | _ => []
  let named := named.filter (!·.isEmpty)
  if named.isEmpty then none else some named

def extra (settings : Settings) : Dict Json :=
  Dict.ofList (settings.entries.filter fun entry =>
    !SerializationContext.reservedKeys.contains entry.1)

end Settings

/-- Whether an update may change the instance, and whether it may do so below the top level. -/
structure UpdateRule where
  allowUpdate : Option Bool
  deep : Option Bool

/-- The settings first; without any, `PUT` and `PATCH` update, and `PATCH` does so at depth. -/
def UpdateRule.ofRequest (settings : Settings) (request : Request) (direction : Direction) :
    UpdateRule :=
  let allowUpdate := settings.bool? "api_allow_update"
  let deep := settings.bool? "deep_object_to_populate"
  match direction, allowUpdate with
  | .denormalization, none =>
    let method := String.ofList (request.method.toList.map Char.toUpper)
    ⟨some (method = "PUT" || method = "PATCH"),
      if method = "PATCH" then deep.or (some true) else deep⟩
  | _, _ => ⟨allowUpdate, deep⟩

namespace Subresource

private def parameterValue (request : Request) (parameter : String) : Json :=
  (request.attribute? parameter).getD .null

def identifierValues (subresource : Subresource) (request : Request) : Dict Json :=
  Dict.ofList (subresource.identifiers.entries.map fun (parameter, _) =>
    (parameter, parameterValue request parameter))

def resourceValues (subresource : Subresource) (request : Request) : Dict (Dict Json) :=
  subresource.identifiers.entries.foldl (fun classes (parameter, name) =>
    classes.alter name fun values? =>
      (values?.getD .empty).insert parameter (parameterValue request parameter)) .empty

end Subresource

/-- A context without its groups, and the groups that are configured. -/
structure ContextDraft where
  route : Route
  configuredGroups : Option (List String)
  withGroups : List String → SerializationContext

/-- All that does not depend on the caller, for one operation of one resource. -/
def ContextDraft.ofRoute (request : Request) (resource : Resource) (direction : Direction)
    (route : Route) : ContextDraft :=
  let settings := Settings.ofRoute resource route direction
  let attribute? := resource.attribute? route.operation route.operationName
  let update := UpdateRule.ofRequest settings request direction
  let property := route.subresource.bind Subresource.property
  { route
    configuredGroups := settings.groups?
    withGroups := fun groups => {
      groups
      resourceClass := route.resourceClass
      operation := route.operation
      operationName := route.operationName
      direction
      allowUpdate := update.allowUpdate
      deepObjectToPopulate := update.deep
      asCollection :=
        if direction = .denormalization ∧ request.isCsv then some false
        else settings.bool? "as_collection"
      iriOnly :=
        (((resource.attributes.get? "normalization_context").bind (·.field? "iri_only")).bind
          Json.bool?).getD false
      input := attribute? "input"
      output := attribute? "output"
      requestUri := request.requestUri
      uri := request.uri
      subresourceIdentifiers := route.subresource.map (·.identifierValues request)
      subresourceResources := route.subresource.map (·.resourceValues request)
      subresourceProperty := property
      subresourceResourceClass :=
        property.bind fun _ => route.subresource.bind Subresource.resourceClass
      enableMaxDepth := (settings.bool? "enable_max_depth").getD true
      skipNullValues :=
        (settings.bool? "skip_null_values").getD
          (resource.itemOperations.values.any Operation.acceptsMergePatch)
      extra := settings.extra } }

namespace Request

def routeOr (request : Request) : Option Route → Except ContextError Route
  | some route => .ok route
  | none => request.route.mapError .invalidRequest

def draft (request : Request) (resources : Resources) (direction : Direction)
    (given : Option Route) : Except ContextError ContextDraft := do
  let route ← request.routeOr given
  match resources.find? route.resourceClass with
  | some resource => return ContextDraft.ofRoute request resource direction route
  | none => .error (.unknownResource route.resourceClass)

end Request

structure ContextBuilder where
  resources : Resources
  evaluator : CriteriaEvaluator
  caller : Caller
  policy : DirectionPolicy := .asymmetric

structure BuiltContext where
  result : Except ContextError SerializationContext
  consultations : List Consultation := []

def BuiltContext.questions (built : BuiltContext) : List Question :=
  built.consultations.filterMap Consultation.question?

namespace ContextBuilder

/-- The groups that are active for a request in the table of its resource; without a table there are
none. -/
def activeGroups (builder : ContextBuilder) (registry : Registry) (request : Request)
    (direction : Direction) (route : Route) : ActiveGroups :=
  match registry.table? route.resourceClass with
  | none => { result := .ok [] }
  | some table =>
    let query : GroupQuery :=
      { operation := route.operation
        direction
        policy := builder.policy
        instance_ := request.data?
        caller := builder.caller }
    query.active builder.evaluator table

def evaluate (builder : ContextBuilder) (registry : Registry) (request : Request)
    (direction : Direction) (draft : ContextDraft) : BuiltContext :=
  let active := builder.activeGroups registry request direction draft.route
  match active.result with
  | .ok groups => ⟨.ok (draft.withGroups groups), active.consultations⟩
  | .error cause => ⟨.error (.criteria cause), active.consultations⟩

/-- The context of a request.  Without a route, the attributes of the request name it. -/
def build (builder : ContextBuilder) (registry : Registry) (request : Request)
    (direction : Direction) (route : Option Route) : BuiltContext :=
  match request.draft builder.resources direction route with
  | .error error => ⟨.error error, []⟩
  | .ok draft =>
    match draft.configuredGroups with
    | some groups => ⟨.ok (draft.withGroups groups), []⟩
    | none => builder.evaluate registry request direction draft

/-- The context of a request by the registry of a slot, which is built when groups are evaluated for
the first time. -/
def buildShared (builder : ContextBuilder) (slot : Slot) (init : Except MappingError Registry)
    (request : Request) (direction : Direction) (route : Option Route) : BuiltContext × Slot :=
  match request.draft builder.resources direction route with
  | .error error => (⟨.error error, []⟩, slot)
  | .ok draft =>
    match draft.configuredGroups with
    | some groups => (⟨.ok (draft.withGroups groups), []⟩, slot)
    | none =>
      let (registry, slot) := slot.getOrBuild init
      match registry with
      | .ok registry => (builder.evaluate registry request direction draft, slot)
      | .error cause => (⟨.error (.mapping cause), []⟩, slot)

end ContextBuilder

end Visibility
