import Visibility.Decimal.Text
import Visibility.Yaml.Basic

set_option autoImplicit false
set_option relaxedAutoImplicit false

/-!
The value of a scalar by its tag and its text.
-/

namespace Visibility.Yaml.Scalar

def isNull (text : String) : Bool :=
  text = "null" || text = "Null" || text = "NULL" || text = "~"

def bool? (text : String) : Option Bool :=
  if text = "true" || text = "True" || text = "TRUE" then some true
  else if text = "false" || text = "False" || text = "FALSE" then some false
  else none

private def unsigned : List Char → List Char
  | '+' :: rest => rest
  | '-' :: rest => rest
  | rest => rest

/-- Digits that begin with a zero are no number, unless they are just that zero. -/
def isPaddedNumber (text : String) : Bool :=
  match unsigned text.toList with
  | '0' :: rest => !rest.isEmpty && rest.all Char.isDigit
  | _ => false

private def digit? (radix : Nat) (c : Char) : Option Nat :=
  let value? :=
    if '0' ≤ c ∧ c ≤ '9' then some (c.toNat - '0'.toNat)
    else if 'a' ≤ c ∧ c ≤ 'f' then some (c.toNat - 'a'.toNat + 10)
    else if 'A' ≤ c ∧ c ≤ 'F' then some (c.toNat - 'A'.toNat + 10)
    else none
  value?.filter (· < radix)

private def digits? (radix : Nat) (digits : List Char) : Option Nat :=
  if digits.isEmpty then none
  else digits.foldlM (fun number c => do return radix * number + (← digit? radix c)) 0

/-- The integer that a text writes, in decimal or after `0x`, `0o` or `0b`. -/
def int? (text : String) : Option Int := do
  let chars := text.toList
  let size ← match unsigned chars with
    | '0' :: 'x' :: rest => digits? 16 rest
    | '0' :: 'o' :: rest => digits? 8 rest
    | '0' :: 'b' :: rest => digits? 2 rest
    | rest => if isPaddedNumber text then none else digits? 10 rest
  return if chars.head? = some '-' then -size else size

def fits (n : Int) : Bool :=
  Number.minInt ≤ n && n ≤ Number.maxInt

def infinity : Float := 1.0 / 0.0

private def infinityTexts : List String := [".inf", ".Inf", ".INF"]

private def nanTexts : List String := [".nan", ".NaN", ".NAN"]

/-- The float that a text writes; one that overflows is none. -/
def float? (text : String) : Option Float :=
  let afterPlus := match text.toList with
    | '+' :: rest => String.ofList rest
    | _ => text
  if infinityTexts.contains afterPlus then some infinity
  else if (infinityTexts.map ("-" ++ ·)).contains text then some (-infinity)
  else if nanTexts.contains text then some (0.0 / 0.0)
  else (Decimal.read text.toList).filter Float.isFinite

/-- The value of a plain scalar without a tag.  An integer of more than 64 and up to 128 bits is
refused; a larger one is a float. -/
def resolve? (text : String) : Option Yaml :=
  if text.isEmpty || isNull text then some .null
  else
    match bool? text with
    | some flag => some (.bool flag)
    | none =>
      let fractional := match if isPaddedNumber text then none else float? text with
        | some value => Yaml.number (.float value)
        | none => .string text
      match int? text with
      | some n =>
        if fits n then some (.number (.int n))
        else if -Int.ofNat (Nat.pow 2 127) ≤ n ∧ n < Int.ofNat (Nat.pow 2 128) then none
        else some fractional
      | none => some fractional

def boolTag : String := "tag:yaml.org,2002:bool"

def intTag : String := "tag:yaml.org,2002:int"

def floatTag : String := "tag:yaml.org,2002:float"

def nullTag : String := "tag:yaml.org,2002:null"

/-- The value of a scalar: a tag for a kind forces that kind, any other tag makes it a string. -/
def value? (tag : Option String) (plain : Bool) (text : String) : Option Yaml :=
  match tag with
  | none => if plain then resolve? text else some (.string text)
  | some tag =>
    if tag = boolTag then (bool? text).map .bool
    else if tag = intTag then ((int? text).filter fits).map fun n => .number (.int n)
    else if tag = floatTag then (float? text).map fun value => .number (.float value)
    else if tag = nullTag then if isNull text then some .null else none
    else some (.string text)

end Visibility.Yaml.Scalar
