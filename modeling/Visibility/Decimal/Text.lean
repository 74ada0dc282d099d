import Visibility.Decimal.Shortest

set_option autoImplicit false
set_option relaxedAutoImplicit false

/-!
Reading and writing binary64 numbers as decimal text.
-/

namespace Visibility.Decimal

/-- How a finite number is laid out: which places of the decimal point are written positionally. -/
structure Layout where
  /-- Positional while the point stands at most this many places after the first digit. -/
  lastPlace : Int
  /-- Positional while the point stands more than this many places before the first digit. -/
  firstPlace : Int

/-- Numbers are positional from `0.00001` up to sixteen digits before the point. -/
def Layout.standard : Layout := ⟨16, -5⟩

private def zeros (count : Int) : String :=
  String.ofList (List.replicate count.toNat '0')

/-- Writes `0.digits * 10 ^ place`.  An exponent has its sign, a positive one too. -/
private def Layout.write (layout : Layout) (digits : String) (place : Int) : String :=
  let count : Int := digits.length
  let cut (n : Int) := (String.ofList (digits.toList.take n.toNat),
    String.ofList (digits.toList.drop n.toNat))
  if count ≤ place ∧ place ≤ layout.lastPlace then digits ++ zeros (place - count) ++ ".0"
  else if 0 < place ∧ place ≤ layout.lastPlace then
    let (whole, rest) := cut place
    whole ++ "." ++ rest
  else if layout.firstPlace < place ∧ place ≤ 0 then "0." ++ zeros (-place) ++ digits
  else
    let (first, rest) := cut 1
    let mark := (if 0 < place then "e+" else "e") ++ toString (place - 1)
    if rest.isEmpty then first ++ mark else first ++ "." ++ rest ++ mark

/-- The shortest text of a finite number; a zero keeps its sign. -/
def text (layout : Layout) (value : Float) : String :=
  let bits := value.toBits.toNat
  let sign := if bits / Nat.pow 2 63 = 1 then "-" else ""
  let magnitude := bits % Nat.pow 2 63
  if magnitude = 0 then sign ++ "0.0"
  else
    let s := shortest magnitude
    let digits := toString s.digits
    sign ++ layout.write digits (digits.length + s.exponent)

/-- The number nearest to `digits * 10 ^ exponent`; infinity beyond the largest finite one. -/
def nearest (digits : Nat) (exponent : Int) : Float :=
  let place : Int := (toString digits).length + exponent
  if digits = 0 ∨ place < -400 then 0.0
  else if 400 < place then 1.0 / 0.0
  else if 0 ≤ exponent then Float.ofScientific digits false exponent.toNat
  else Float.ofScientific digits true (-exponent).toNat

private def afterWhole (whole : List Char) (rest : List Char) : Option Float :=
  let (fraction, rest) : List Char × List Char :=
    match rest with
    | '.' :: more => (more.takeWhile Char.isDigit, more.dropWhile Char.isDigit)
    | _ => ([], rest)
  let number (ds : List Char) : Nat := ds.foldl (fun n c => 10 * n + (c.toNat - '0'.toNat)) 0
  if whole.isEmpty && fraction.isEmpty then none
  else
    let finish (exponent : Int) : Option Float :=
      some (nearest (number (whole ++ fraction)) (exponent - fraction.length))
    match rest with
    | [] => finish 0
    | mark :: more =>
      if mark = 'e' ∨ mark = 'E' then
        let (negative, digits) : Bool × List Char := match more with
          | '-' :: ds => (true, ds)
          | '+' :: ds => (false, ds)
          | ds => (false, ds)
        if digits.isEmpty || !digits.all Char.isDigit then none
        else
          let size : Int := number digits
          finish (if negative then -size else size)
      else none

/-- Reads a decimal with an optional sign, fraction and exponent, such as `-1.5e3`, `.5` or `5.`,
to the nearest number.  A digit must stand on at least one side of the point. -/
def read (chars : List Char) : Option Float :=
  let unsigned (cs : List Char) := afterWhole (cs.takeWhile Char.isDigit) (cs.dropWhile Char.isDigit)
  match chars with
  | '-' :: rest => (unsigned rest).map fun value => -value
  | '+' :: rest => unsigned rest
  | rest => unsigned rest

end Visibility.Decimal
