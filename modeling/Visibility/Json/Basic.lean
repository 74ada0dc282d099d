import Visibility.Number
import Visibility.Ordered.Dict

set_option autoImplicit false
set_option relaxedAutoImplicit false

/-!
JSON values.  An object is a list of fields in document order.
-/

namespace Visibility

inductive Json where
  | null
  | bool (value : Bool)
  | number (value : Number)
  | string (value : String)
  | array (items : List Json)
  | object (fields : List (String × Json))

namespace Json

instance : Inhabited Json := ⟨null⟩

abbrev Fields := List (String × Json)

def int (value : Int) : Json := number (.int value)

def strings (values : List String) : Json := array (values.map string)

def string? : Json → Option String
  | string value => some value
  | _ => none

def bool? : Json → Option Bool
  | bool value => some value
  | _ => none

def array? : Json → Option (List Json)
  | array items => some items
  | _ => none

def object? : Json → Option Fields
  | object fields => some fields
  | _ => none

def field? : Json → String → Option Json
  | object fields, name => fields.lookup name
  | _, _ => none

def isNull : Json → Bool
  | null => true
  | _ => false

mutual

/-- Strict equality: numbers agree in kind and value, and objects have equal values at equal names
in any order. -/
def identical : Json → Json → Bool
  | null, null => true
  | bool a, bool b => a == b
  | number a, number b => a.same b
  | string a, string b => a == b
  | array as, array bs => identicalItems as bs
  | object as, object bs => as.length == bs.length && identicalFields as bs
  | _, _ => false

def identicalItems : List Json → List Json → Bool
  | [], [] => true
  | a :: as, b :: bs => identical a b && identicalItems as bs
  | _, _ => false

def identicalFields : Fields → Fields → Bool
  | [], _ => true
  | (name, a) :: as, bs =>
    (match bs.lookup name with
      | some b => identical a b
      | none => false) && identicalFields as bs

end

def kind : Json → String
  | null => "null"
  | bool _ => "a boolean"
  | number _ => "a number"
  | string _ => "a string"
  | array _ => "a list"
  | object _ => "an object"

/-- Loose truth: `null`, `false`, zeros, `""`, `"0"` and `[]` are false. -/
def truthy : Json → Bool
  | null => false
  | bool value => value
  | number value => value.toFloat != 0.0
  | string value => !value.isEmpty && value != "0"
  | array items => !items.isEmpty
  | object _ => true

end Json

end Visibility
