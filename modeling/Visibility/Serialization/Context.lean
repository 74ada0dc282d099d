import Visibility.Groups
import Visibility.Request
import Visibility.Resource

set_option autoImplicit false
set_option relaxedAutoImplicit false

/-!
What a serializer needs to know for one request, and how it is written as JSON.
-/

namespace Visibility

structure SerializationContext where
  groups : List String
  resourceClass : String
  operation : OperationType
  operationName : String
  direction : Direction
  allowUpdate : Option Bool
  deepObjectToPopulate : Option Bool
  asCollection : Option Bool
  iriOnly : Bool
  input : Option Json
  output : Option Json
  requestUri : String
  uri : String
  /-- Values of the route parameters that identify the resources around a nested one. -/
  subresourceIdentifiers : Option (Dict Json)
  /-- The same values by the class that they identify one of. -/
  subresourceResources : Option (Dict (Dict Json))
  subresourceProperty : Option String
  subresourceResourceClass : Option String
  enableMaxDepth : Bool
  skipNullValues : Bool
  /-- Settings of the operation that have no field of their own. -/
  extra : Dict Json

namespace SerializationContext

/-- Settings that have a field of their own, or none at all. -/
def reservedKeys : List String :=
  ["groups", "api_allow_update", "deep_object_to_populate", "as_collection", "skip_null_values",
    "enable_max_depth", "iri_only", "input", "output", "resource_class", "operation_type",
    "request_uri", "uri", "subresource_identifiers", "subresource_resources",
    "subresource_property", "subresource_resource_class", "swagger_definition_name"]

def given (name : String) (value : Option Json) : Json.Fields :=
  match value with
  | some value => [(name, value)]
  | none => []

def ownFields (context : SerializationContext) : Json.Fields :=
  [("groups", .strings context.groups),
    ("resource_class", .string context.resourceClass),
    ("operation_type", .string context.operation.name),
    ("operation_name", .string context.operationName),
    ("direction", .string context.direction.name)] ++
  given "allow_update" (context.allowUpdate.map .bool) ++
  given "deep_object_to_populate" (context.deepObjectToPopulate.map .bool) ++
  given "as_collection" (context.asCollection.map .bool) ++
  [("iri_only", .bool context.iriOnly),
    ("input", context.input.getD .null),
    ("output", context.output.getD .null),
    ("request_uri", .string context.requestUri),
    ("uri", .string context.uri)] ++
  given "subresource_identifiers"
    (context.subresourceIdentifiers.map fun values => .object values.entries) ++
  given "subresource_resources"
    (context.subresourceResources.map fun classes =>
      .object (classes.entries.map fun (name, values) => (name, .object values.entries))) ++
  given "subresource_property" (context.subresourceProperty.map .string) ++
  given "subresource_resource_class" (context.subresourceResourceClass.map .string) ++
  [("enable_max_depth", .bool context.enableMaxDepth),
    ("skip_null_values", .bool context.skipNullValues)]

/-- The fields in which a context is written, the extra settings last. -/
def fields (context : SerializationContext) : Json.Fields :=
  context.ownFields ++ context.extra.entries

end SerializationContext

end Visibility
