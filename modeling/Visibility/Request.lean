import Visibility.Decoding
import Visibility.Operation
import Visibility.Text.Split

set_option autoImplicit false
set_option relaxedAutoImplicit false

/-!
Requests, and which operation of which resource they are routed to.
-/

namespace Visibility

structure Request where
  method : String
  /-- The whole address. -/
  uri : String
  /-- The address from the path on. -/
  requestUri : String
  /-- The format or media type of the body. -/
  contentType : Option String := none
  /-- What the router says of the request, and the parameters of the route. -/
  attributes : Dict Json := .empty

namespace Request

/-- An address from its path on; an address without a scheme as a whole. -/
def pathOf (uri : String) : String :=
  match Text.cutFirst? "://" uri with
  | none => uri
  | some (_, rest) =>
    match rest.toList.dropWhile (· ≠ '/') with
    | [] => "/"
    | path => String.ofList path

def ofUri (method uri : String) : Request :=
  { method, uri, requestUri := pathOf uri }

def addAttribute (request : Request) (name : String) (value : Json) : Request :=
  { request with attributes := request.attributes.insert name value }

def attribute? (request : Request) (name : String) : Option Json :=
  request.attributes.get? name

/-- The `data` attribute, if it is true as a condition. -/
def data? (request : Request) : Option Json :=
  (request.attribute? "data").filter Json.truthy

def isCsv (request : Request) : Bool :=
  request.contentType = some "csv" || request.contentType = some "text/csv"

def decode {σ : Type} [Source σ] (place : σ) : Decoding Request := do
  let fields ← Source.fields ["method", "uri", "request_uri", "content_type", "attributes"] place
  return {
    method := ← Decoding.field fields "method" Source.text
    uri := ← Decoding.field fields "uri" Source.text
    requestUri := ← Decoding.field fields "request_uri" Source.text
    contentType := ← Decoding.fieldD fields "content_type" none (Source.optional Source.text)
    attributes := ← Decoding.fieldD fields "attributes" .empty (Decoding.dict Source.json) }

end Request

structure Subresource where
  /-- Classes by the route parameter that identifies one of theirs. -/
  identifiers : Dict String := .empty
  property : Option String := none
  resourceClass : Option String := none

structure Route where
  resourceClass : String
  operation : OperationType
  operationName : String
  subresource : Option Subresource := none

/-- Why the attributes of a request name no operation. -/
inductive RouteError where
  | missingClass
  | missingOperation
  | subresourceNotMap
  | identifiersNotMap
  | targetWithoutClass
deriving DecidableEq, Repr

namespace Route

def classKey : String := "_api_resource_class"

def subresourceKey : String := "_api_subresource_context"

/-- The attributes that name an operation, in the order in which they are looked at. -/
def operationKeys : List (String × OperationType) :=
  [("_api_collection_operation_name", .collection), ("_api_item_operation_name", .item),
    ("_api_subresource_operation_name", .subresource)]

end Route

def RouteError.message : RouteError → String
  | missingClass => "missing " ++ Route.classKey
  | missingOperation => "missing operation name"
  | subresourceNotMap => Route.subresourceKey ++ ": expected a map"
  | identifiersNotMap => Route.subresourceKey ++ ": identifiers must be a map"
  | targetWithoutClass =>
    Route.subresourceKey ++ ": identifier targets must name a resource class"

namespace Subresource

/-- The class that an identifier names: alone, or first in a list. -/
def targetClass? : Json → Option String
  | .string name => some name
  | .array (first :: _) => first.string?
  | _ => none

private def identifiersOf : Json.Fields → Except RouteError (List (String × String))
  | [] => .ok []
  | (parameter, target) :: rest =>
    match targetClass? target with
    | none => .error .targetWithoutClass
    | some name => do
      let rest ← identifiersOf rest
      return (parameter, name) :: rest

def ofJson (value : Json) : Except RouteError Subresource := do
  let fields ← match value with
    | .object fields => .ok fields
    | _ => .error .subresourceNotMap
  let identifiers ← match fields.lookup "identifiers" with
    | none => .ok []
    | some (.object targets) => identifiersOf targets
    | some _ => .error .identifiersNotMap
  return {
    identifiers := Dict.ofList identifiers
    property := (fields.lookup "property").bind Json.string?
    resourceClass := (fields.lookup "resource_class").bind Json.string? }

end Subresource

namespace Request

private def text? (request : Request) (name : String) : Option String :=
  (request.attribute? name).bind Json.string?

def route (request : Request) : Except RouteError Route := do
  let resourceClass ← match (request.text? Route.classKey).filter (!·.isEmpty) with
    | some name => .ok name
    | none => .error .missingClass
  let (operation, operationName) ←
    match Route.operationKeys.findSome? fun (key, type) => (request.text? key).map (type, ·) with
    | some found => .ok found
    | none => .error .missingOperation
  let subresource ← match request.attribute? Route.subresourceKey with
    | none => .ok none
    | some value => (Subresource.ofJson value).map some
  return { resourceClass, operation, operationName, subresource }

end Request

end Visibility
