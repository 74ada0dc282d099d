import Visibility.Decoding
import Visibility.Operation

set_option autoImplicit false
set_option relaxedAutoImplicit false

/-!
Resources: their operations, and the attributes that say how they are serialized.
-/

namespace Visibility

structure Operation where
  method : Option String := none
  /-- Accepted media types by the name of a format. -/
  inputFormats : Dict (List String) := .empty
  /-- Everything else that is said of the operation. -/
  attributes : Dict Json := .empty

namespace Operation

def mergePatchType : String := "application/merge-patch+json"

private def lowerAscii (text : String) : List Char :=
  text.toList.map Char.toLower

def acceptsMergePatch (operation : Operation) : Bool :=
  let isPatch := match operation.method with
    | some method => lowerAscii method == lowerAscii "PATCH"
    | none => false
  isPatch && ((operation.inputFormats.get? "json").getD []).contains mergePatchType

end Operation

structure Resource where
  /-- Attributes of every operation that has none of that name itself. -/
  attributes : Dict Json := .empty
  collectionOperations : Dict Operation := .empty
  itemOperations : Dict Operation := .empty
  subresourceOperations : Dict Operation := .empty

namespace Resource

def operations (resource : Resource) : OperationType → Dict Operation
  | .collection => resource.collectionOperations
  | .item => resource.itemOperations
  | .subresource => resource.subresourceOperations

def operation? (resource : Resource) (type : OperationType) (name : String) : Option Operation :=
  (resource.operations type).get? name

/-- An attribute of an operation, else of the resource; `null` counts as none. -/
def attribute? (resource : Resource) (type : OperationType) (name key : String) : Option Json :=
  let own := (resource.operation? type name).bind fun operation => operation.attributes.get? key
  (own.or (resource.attributes.get? key)).filter fun value => !value.isNull

end Resource

structure Resources where
  classes : Dict Resource

namespace Resources

def empty : Resources := ⟨.empty⟩

def find? (resources : Resources) (name : String) : Option Resource :=
  resources.classes.get? name

def size (resources : Resources) : Nat :=
  resources.classes.size

def isEmpty (resources : Resources) : Bool :=
  resources.classes.isEmpty

end Resources

variable {σ : Type} [Source σ]

def Operation.decode (place : σ) : Decoding Operation := do
  let (fields, others) ← Source.openFields ["method", "input_formats"] place
  return {
    method := ← Decoding.fieldD fields "method" none (Source.optional Source.text)
    inputFormats :=
      ← Decoding.fieldD fields "input_formats" .empty (Decoding.dict (Source.list Source.text))
    attributes := Dict.ofList others }

def Resource.decode (place : σ) : Decoding Resource := do
  let operations (fields : List (String × σ)) (name : String) : Decoding (Dict Operation) :=
    Decoding.fieldD fields name .empty (Decoding.dict Operation.decode)
  let fields ← Source.fields
    ["attributes", "collection_operations", "item_operations", "subresource_operations"] place
  return {
    attributes := ← Decoding.fieldD fields "attributes" .empty (Decoding.dict Source.json)
    collectionOperations := ← operations fields "collection_operations"
    itemOperations := ← operations fields "item_operations"
    subresourceOperations := ← operations fields "subresource_operations" }

def Resources.decode (place : σ) : Decoding Resources := do
  let fields ← Source.fields ["resources"] place
  return ⟨← Decoding.fieldD fields "resources" .empty (Decoding.dict Resource.decode)⟩

end Visibility
