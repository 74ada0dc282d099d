set_option autoImplicit false
set_option relaxedAutoImplicit false

/-!
The shortest decimal that reads back as a given positive binary64 number.

A number is taken as `mantissa * 2 ^ exponent`.  The reals that round to it form an interval, ends
included when the mantissa is even.  For 1, 2, … 17 digits the two neighbours of the number on that
decimal grid are tested exactly: the first grid with a hit wins, of two hits the nearer one, and of
two equally near hits the one with an even last digit.
-/

namespace Visibility.Decimal

/-- A decimal `digits * 10 ^ exponent`. -/
structure Scaled where
  digits : Nat
  exponent : Int
deriving DecidableEq, Repr

private structure Fraction where
  num : Nat
  den : Nat

private def Fraction.scale (num : Nat) (exponent : Int) (base : Nat) : Fraction :=
  if 0 ≤ exponent then ⟨num * Nat.pow base exponent.toNat, 1⟩ else ⟨num, Nat.pow base (-exponent).toNat⟩

private def Fraction.le (a b : Fraction) : Bool :=
  a.num * b.den ≤ b.num * a.den

private def Fraction.lt (a b : Fraction) : Bool :=
  a.num * b.den < b.num * a.den

/-- The number together with the interval of reals that round to it. -/
private structure Target where
  value : Fraction
  lower : Fraction
  upper : Fraction
  closed : Bool

private def Target.ofParts (mantissa : Nat) (exponent : Int) (narrowBelow : Bool) : Target :=
  let quarter := exponent - 2
  { value := .scale (4 * mantissa) quarter 2
    lower := .scale (4 * mantissa - if narrowBelow then 1 else 2) quarter 2
    upper := .scale (4 * mantissa + 2) quarter 2
    closed := mantissa % 2 == 0 }

private def Target.holds (target : Target) (point : Fraction) : Bool :=
  if target.closed then target.lower.le point && point.le target.upper
  else target.lower.lt point && point.lt target.upper

/-- The decimal exponent of the leading digit of a positive fraction. -/
private def leadingExponent (value : Fraction) : Int :=
  let binary : Int := (value.num.log2 : Int) - (value.den.log2 : Int)
  let guess := (binary * 30103).fdiv 100000 - 1
  let above (e : Int) : Bool := (Fraction.scale 1 e 10).le value
  if above (guess + 3) then guess + 3
  else if above (guess + 2) then guess + 2
  else if above (guess + 1) then guess + 1
  else guess

/-- Of the two neighbours on the grid `10 ^ exponent`, the one to take if any is in the interval. -/
private def Target.onGrid (target : Target) (exponent : Int) : Option Nat :=
  let ⟨num, den⟩ := target.value
  let unit := Fraction.scale 1 exponent 10
  let below := num * unit.den / (den * unit.num)
  let point (c : Nat) := Fraction.scale c exponent 10
  let lowHit := target.holds (point below)
  let highHit := target.holds (point (below + 1))
  if lowHit && highHit then
    let twice := 2 * num * unit.den
    let middle := (2 * below + 1) * den * unit.num
    if twice < middle then some below
    else if middle < twice then some (below + 1)
    else if below % 2 == 0 then some below else some (below + 1)
  else if lowHit then some below
  else if highHit then some (below + 1)
  else none

private def trimZeros : Nat → Scaled → Scaled
  | 0, s => s
  | fuel + 1, s =>
    if s.digits ≠ 0 ∧ s.digits % 10 = 0 then trimZeros fuel ⟨s.digits / 10, s.exponent + 1⟩ else s

private def search (target : Target) (leading : Int) : Nat → Nat → Scaled
  | 0, _ => ⟨0, 0⟩
  | fuel + 1, digits =>
    let exponent := leading - digits
    match target.onGrid exponent with
    | some c => trimZeros 20 ⟨c, exponent⟩
    | none => search target leading fuel (digits + 1)

/-- The shortest decimal of a positive finite number given by its bits without the sign. -/
def shortest (bits : Nat) : Scaled :=
  let field : Nat := bits / Nat.pow 2 52
  let fraction : Nat := bits % Nat.pow 2 52
  let target :=
    if field = 0 then Target.ofParts fraction (-1074) false
    else Target.ofParts (fraction + Nat.pow 2 52) ((field : Int) - 1075) (fraction == 0 && field != 1)
  search target (leadingExponent target.value) 18 0

end Visibility.Decimal
