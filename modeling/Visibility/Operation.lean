set_option autoImplicit false
set_option relaxedAutoImplicit false

/-!
What is done to a resource, and in which direction data goes.
-/

namespace Visibility

inductive OperationType where
  | collection
  | item
  | subresource
deriving DecidableEq, Repr

inductive Direction where
  /-- From an object to its serialized form. -/
  | normalization
  /-- From the serialized form to an object. -/
  | denormalization
deriving DecidableEq, Repr

/-- How tags are filtered by direction. -/
inductive DirectionPolicy where
  /-- Tags of the other direction are dropped only while normalizing. -/
  | asymmetric
  /-- Tags of the other direction are always dropped. -/
  | symmetric
deriving DecidableEq, Repr

inductive NameError where
  | unknownOperationType (name : String)
  | unknownDirection (name : String)
deriving DecidableEq, Repr

def NameError.message : NameError → String
  | unknownOperationType name => "unknown operation type \"" ++ name ++ "\""
  | unknownDirection name => "unknown direction \"" ++ name ++ "\""

namespace OperationType

def name : OperationType → String
  | collection => "collection"
  | item => "item"
  | subresource => "subresource"

def ofName (name : String) : Except NameError OperationType :=
  match name with
  | "collection" => .ok collection
  | "item" => .ok item
  | "subresource" => .ok subresource
  | _ => .error (.unknownOperationType name)

theorem ofName_name (operation : OperationType) : ofName operation.name = .ok operation := by
  cases operation <;> rfl

end OperationType

namespace Direction

def name : Direction → String
  | normalization => "normalization"
  | denormalization => "denormalization"

def ofName (name : String) : Except NameError Direction :=
  match name with
  | "normalization" => .ok normalization
  | "denormalization" => .ok denormalization
  | _ => .error (.unknownDirection name)

theorem ofName_name (direction : Direction) : ofName direction.name = .ok direction := by
  cases direction <;> rfl

end Direction

namespace DirectionPolicy

def name : DirectionPolicy → String
  | asymmetric => "asymmetric"
  | symmetric => "symmetric"

def ofName? : String → Option DirectionPolicy
  | "asymmetric" => some asymmetric
  | "symmetric" => some symmetric
  | _ => none

end DirectionPolicy

end Visibility
