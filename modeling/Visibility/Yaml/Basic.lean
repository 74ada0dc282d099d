import Visibility.Number
import Visibility.Ordered.Dict

set_option autoImplicit false
set_option relaxedAutoImplicit false

/-!
YAML values.  A map is a list of pairs in document order.
-/

namespace Visibility

inductive Yaml where
  | null
  | bool (value : Bool)
  | number (value : Number)
  | string (value : String)
  | sequence (items : List Yaml)
  | mapping (pairs : List (Yaml × Yaml))
  | tagged (tag : String) (value : Yaml)

namespace Yaml

instance : Inhabited Yaml := ⟨null⟩

abbrev Pairs := List (Yaml × Yaml)

def untagged : Yaml → Yaml
  | tagged _ value => value.untagged
  | value => value

def text? (value : Yaml) : Option String :=
  match value.untagged with
  | string text => some text
  | _ => none

def bool? (value : Yaml) : Option Bool :=
  match value.untagged with
  | bool flag => some flag
  | _ => none

def nat? (value : Yaml) : Option Nat :=
  match value.untagged with
  | number (.int n) => if 0 ≤ n then some n.toNat else none
  | _ => none

def pairs? (value : Yaml) : Option Pairs :=
  match value.untagged with
  | mapping pairs => some pairs
  | _ => none

def kind : Yaml → String
  | null => "null"
  | bool _ => "a boolean"
  | number _ => "a number"
  | string _ => "a string"
  | sequence _ => "a list"
  | mapping _ => "a map"
  | tagged _ _ => "a tagged value"

/-- Equality of numbers as keys: all values that are not a number are one. -/
private def sameNumber : Number → Number → Bool
  | .float a, .float b => a == b || (a != a && b != b)
  | a, b => a.same b

mutual

/-- Equality of values as keys: maps have equal values at equal keys in any order. -/
def same : Yaml → Yaml → Bool
  | null, null => true
  | bool a, bool b => a == b
  | number a, number b => sameNumber a b
  | string a, string b => a == b
  | sequence as, sequence bs => sameItems as bs
  | mapping as, mapping bs => as.length == bs.length && samePairs as bs
  | tagged s a, tagged t b => s == t && same a b
  | _, _ => false

def sameItems : List Yaml → List Yaml → Bool
  | [], [] => true
  | a :: as, b :: bs => same a b && sameItems as bs
  | _, _ => false

def samePairs : Pairs → Pairs → Bool
  | [], _ => true
  | (k, a) :: as, bs => (bs.any fun pair => same k pair.1 && same a pair.2) && samePairs as bs

end

end Yaml

end Visibility
