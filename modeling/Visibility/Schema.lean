import Visibility.Ordered.Dict

set_option autoImplicit false
set_option relaxedAutoImplicit false

/-!
What is known about types: their accessors, their properties, and which types there are.
-/

namespace Visibility

inductive RelationKind where
  | oneToOne
  | oneToMany
  | manyToOne
  | manyToMany
deriving DecidableEq, Repr

def RelationKind.ofName? : String → Option RelationKind
  | "one_to_one" => some oneToOne
  | "one_to_many" => some oneToMany
  | "many_to_one" => some manyToOne
  | "many_to_many" => some manyToMany
  | _ => none

structure Relation where
  kind : RelationKind
  target : String
deriving DecidableEq, Repr

/-- An accessor method; its comment is searched for `@return Type`. -/
structure Accessor where
  returns : Option String := none
  doc : Option String := none
deriving DecidableEq, Repr

/-- A property; its comment is searched for `@var Type`. -/
structure Property where
  type : Option String := none
  doc : Option String := none
  relations : List Relation := []
deriving DecidableEq, Repr

/-- Facts about types, from whatever source. -/
structure Introspector where
  accessor : String → String → Option Accessor
  property : String → String → Option Property
  typeExists : String → Bool

structure TypeSchema where
  accessors : Dict Accessor := .empty
  properties : Dict Property := .empty

namespace TypeSchema

def empty : TypeSchema := {}

def addAccessor (schema : TypeSchema) (method : String) (accessor : Accessor) : TypeSchema :=
  { schema with accessors := schema.accessors.insert method accessor }

def addProperty (schema : TypeSchema) (name : String) (property : Property) : TypeSchema :=
  { schema with properties := schema.properties.insert name property }

def addRelation (schema : TypeSchema) (name : String) (relation : Relation) : TypeSchema :=
  { schema with
    properties := schema.properties.alter name fun property? =>
      let property := property?.getD {}
      { property with relations := property.relations ++ [relation] } }

end TypeSchema

structure Schema where
  types : Dict TypeSchema

namespace Schema

def empty : Schema := ⟨.empty⟩

def insert (schema : Schema) (type : String) (typeSchema : TypeSchema) : Schema :=
  ⟨schema.types.insert type typeSchema⟩

def size (schema : Schema) : Nat :=
  schema.types.size

def isEmpty (schema : Schema) : Bool :=
  schema.types.isEmpty

def introspector (schema : Schema) : Introspector where
  accessor type method := do (← schema.types.get? type).accessors.get? method
  property type name := do (← schema.types.get? type).properties.get? name
  typeExists type := schema.types.contains type

end Schema

end Visibility
