import Visibility.Expression.Error
import Visibility.Expression.Syntax
import Visibility.Pattern.Parser
import Visibility.Pattern.Search

set_option autoImplicit false
set_option relaxedAutoImplicit false

/-!
Comparisons of values.
-/

namespace Visibility

private def specialNumber? (name : String) : Option Float :=
  if name = "inf" ∨ name = "infinity" then some (1.0 / 0.0)
  else if name = "nan" then some (0.0 / 0.0)
  else none

/-- The number that a text spells, blanks around it aside. -/
def numberOfText? (text : String) : Option Float :=
  let chars := (Text.trim text).toList
  match Decimal.read chars with
  | some value => some value
  | none =>
    let special (cs : List Char) := specialNumber? (String.ofList (cs.map Char.toLower))
    match chars with
    | '-' :: rest => (special rest).map fun value => -value
    | '+' :: rest => special rest
    | rest => special rest

private def numeric? : Json → Option Float
  | .number value => some value.toFloat
  | .string text => numberOfText? text
  | _ => none

/-- Both sides as numbers, when one of them is a number and the other one a number or the text of
one. -/
def numbers? (left right : Json) : Option (Float × Float) :=
  let isNumber : Json → Bool
    | .number _ => true
    | _ => false
  if isNumber left || isNumber right then do
    let left ← numeric? left
    let right ← numeric? right
    some (left, right)
  else none

/-- Loose equality: a boolean equals whatever is as true, `null` equals what is not true and no list,
and a number equals its text. -/
def looseEq (left right : Json) : Bool :=
  match left, right with
  | .bool a, other => a == other.truthy
  | other, .bool b => b == other.truthy
  | .null, other => !other.truthy && other.array?.isNone
  | other, .null => !other.truthy && other.array?.isNone
  | left, right =>
    match numbers? left right with
    | some (a, b) => a == b
    | none => left.identical right

def order (left right : Json) : Except ExpressionError Ordering :=
  match left, right with
  | .string a, .string b => .ok (compareOfLessAndEq a b)
  | _, _ =>
    match numbers? left right with
    | none => .error (.unordered left.kind right.kind)
    | some (a, b) =>
      if a < b then .ok .lt
      else if a == b then .ok .eq
      else if b < a then .ok .gt
      else .error .unorderedNaN

private def flagsOf (flags : List Char) : Pattern.Flags :=
  { ignoreCase := flags.contains 'i', multiLine := flags.contains 'm',
    dotAll := flags.contains 's', skipBlanks := flags.contains 'x' }

private def program? (flags : Pattern.Flags) (text : String) : Option Program :=
  (Pattern.parse? flags text).bind Program.ofPattern?

/-- The pattern of a text.  `/pattern/flags` has flags when they are known ones; none may be given
twice. -/
def patternOfText? (text : String) : Option Program :=
  match text.toList with
  | '/' :: rest =>
    let known (c : Char) : Bool := ['i', 'm', 's', 'x'].contains c
    let flags := rest.reverse.takeWhile (· ≠ '/')
    match rest.reverse.dropWhile (· ≠ '/') with
    | '/' :: body =>
      if flags.all known then
        if flags.eraseDups.length = flags.length then
          program? (flagsOf flags) (String.ofList body.reverse)
        else none
      else program? {} text
    | _ => program? {} text
  | _ => program? {} text

def Comparison.test (op : Comparison) (left right : Json) : Except ExpressionError Bool :=
  match op with
  | .eq => .ok (looseEq left right)
  | .notEq => .ok (!looseEq left right)
  | .identical => .ok (left.identical right)
  | .notIdentical => .ok (!left.identical right)
  | .lt => (order left right).map Ordering.isLT
  | .le => (order left right).map Ordering.isLE
  | .gt => (order left right).map Ordering.isGT
  | .ge => (order left right).map Ordering.isGE
  | .isIn => (found left right)
  | .notIn => (found left right).map not
  | .isMatch =>
    match left, right with
    | .string subject, .string pattern =>
      match patternOfText? pattern with
      | some pattern => .ok (pattern.isMatch subject)
      | none => .error .malformedPattern
    | _, _ => .error .notMatchable
where
  found (left right : Json) : Except ExpressionError Bool :=
    match right with
    | .array items => .ok (items.any (looseEq left))
    | _ => .error (.notAList right.kind)

end Visibility
