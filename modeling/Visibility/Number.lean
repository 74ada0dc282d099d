import Visibility.Decimal.Text

set_option autoImplicit false
set_option relaxedAutoImplicit false

/-!
Numbers of data documents: integers of 64 bits, signed or unsigned, and binary64 floats.
-/

namespace Visibility

/-- An integer or a float; the two never coincide, not even `1` and `1.0`. -/
inductive Number where
  | int (value : Int)
  | float (value : Float)
deriving DecidableEq

namespace Number

def maxInt : Int := 0xffffffffffffffff

def minInt : Int := -0x8000000000000000

/-- The nearest float of an integer of 64 bits. -/
def floatOfInt (value : Int) : Float :=
  if 0 ≤ value then value.toNat.toUInt64.toFloat else -(-value).toNat.toUInt64.toFloat

def toFloat : Number → Float
  | int value => floatOfInt value
  | float value => value

/-- Equality of the kind and the value; zeros of both signs are equal. -/
def same : Number → Number → Bool
  | int a, int b => a == b
  | float a, float b => a == b
  | _, _ => false

def text : Number → String
  | int value => toString value
  | float value => Decimal.text .standard value

/-- The arithmetic negation.  The integer that has no negation of 64 bits, and those beyond the
signed range, become floats. -/
def negate : Number → Number
  | int value =>
    if minInt < value ∧ value < 0x8000000000000000 then int (-value) else float (-floatOfInt value)
  | float value => float (-value)

end Number

end Visibility
