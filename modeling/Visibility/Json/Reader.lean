import Visibility.Json.Basic

set_option autoImplicit false
set_option relaxedAutoImplicit false

/-!
Reading JSON text.  A repeated name keeps its first place and its last value; lists and objects may
be nested 127 deep.
-/

namespace Visibility.Json

private def isBlank (c : Char) : Bool :=
  c = ' ' || c = '\t' || c = '\n' || c = '\r'

private def skipBlanks (cs : List Char) : List Char :=
  cs.dropWhile isBlank

private def digitValue (c : Char) : Nat := c.toNat - '0'.toNat

private def hexValue? (c : Char) : Option Nat :=
  if '0' ≤ c ∧ c ≤ '9' then some (c.toNat - '0'.toNat)
  else if 'a' ≤ c ∧ c ≤ 'f' then some (c.toNat - 'a'.toNat + 10)
  else if 'A' ≤ c ∧ c ≤ 'F' then some (c.toNat - 'A'.toNat + 10)
  else none

private def hex4? : List Char → Option (Nat × List Char)
  | a :: b :: c :: d :: rest => do
    let a ← hexValue? a
    let b ← hexValue? b
    let c ← hexValue? c
    let d ← hexValue? d
    some (((a * 16 + b) * 16 + c) * 16 + d, rest)
  | _ => none

/-- A character after `\u`; two escapes of a surrogate pair make one character. -/
private def unicode? (cs : List Char) : Option (Char × List Char) := do
  let (first, rest) ← hex4? cs
  if 0xD800 ≤ first ∧ first ≤ 0xDBFF then
    match rest with
    | '\\' :: 'u' :: more =>
      let (second, rest) ← hex4? more
      if 0xDC00 ≤ second ∧ second ≤ 0xDFFF then
        some (Char.ofNat (0x10000 + (first - 0xD800) * 0x400 + (second - 0xDC00)), rest)
      else none
    | _ => none
  else if 0xDC00 ≤ first ∧ first ≤ 0xDFFF then none
  else some (Char.ofNat first, rest)

private def simpleEscape? (c : Char) : Option Char :=
  if c = '"' ∨ c = '\\' ∨ c = '/' then some c
  else if c = 'b' then some '\x08'
  else if c = 'f' then some '\x0c'
  else if c = 'n' then some '\n'
  else if c = 'r' then some '\r'
  else if c = 't' then some '\t'
  else none

private def quotedTail? : Nat → List Char → List Char → Option (String × List Char)
  | 0, _, _ => none
  | fuel + 1, done, cs =>
    match cs with
    | [] => none
    | '"' :: rest => some (String.ofList done.reverse, rest)
    | '\\' :: 'u' :: rest =>
      match unicode? rest with
      | some (c, rest) => quotedTail? fuel (c :: done) rest
      | none => none
    | '\\' :: c :: rest =>
      match simpleEscape? c with
      | some c => quotedTail? fuel (c :: done) rest
      | none => none
    | c :: rest => if c.toNat < 32 ∨ c = '\\' then none else quotedTail? fuel (c :: done) rest

/-- The digits that still fit into a significand of 64 bits, how many did not, and the rest. -/
private def significand : Nat → Nat → List Char → Nat × Nat × List Char
  | value, dropped, c :: rest =>
    if c.isDigit then
      let next := value * 10 + digitValue c
      if dropped = 0 ∧ next < 0x10000000000000000 then significand next 0 rest
      else significand value (dropped + 1) rest
    else (value, dropped, c :: rest)
  | value, dropped, [] => (value, dropped, [])

/-- A significand times or divided by a power of ten, each step rounded; nothing on overflow. -/
private def scaled? (value : Nat) (exponent : Int) : Option Float :=
  let significand := value.toUInt64.toFloat
  let tenTo (n : Nat) := Float.ofScientific 1 false n
  let result :=
    if value = 0 then significand
    else if 308 < exponent then 1.0 / 0.0
    else if 0 ≤ exponent then significand * tenTo exponent.toNat
    else if -308 ≤ exponent then significand / tenTo (-exponent).toNat
    else if -616 ≤ exponent then significand / tenTo 308 / tenTo (-exponent - 308).toNat
    else 0.0
  if result == 1.0 / 0.0 then none else some result

private def exponent? (cs : List Char) : Option (Int × List Char) :=
  let (negative, cs) : Bool × List Char := match cs with
    | '-' :: rest => (true, rest)
    | '+' :: rest => (false, rest)
    | rest => (false, rest)
  let digits := cs.takeWhile Char.isDigit
  if digits.isEmpty then none
  else
    let size := digits.foldl (fun n c => min (n * 10 + digitValue c) 0x80000000) 0
    let size : Int := size
    some (if negative then -size else size, cs.dropWhile Char.isDigit)

private def number? (negative : Bool) (cs : List Char) : Option (Number × List Char) :=
  match cs with
  | [] => none
  | first :: afterFirst =>
    let leadingZero := first = '0' && (afterFirst.head?.map Char.isDigit).getD false
    if !first.isDigit || leadingZero then none
    else
      let sign (value : Float) : Number := .float (if negative then -value else value)
      let (whole, droppedWhole, rest) := significand 0 0 cs
      let finish (value : Nat) (exponent : Int) (rest : List Char) : Option (Number × List Char) :=
        match rest with
        | mark :: more =>
          if mark = 'e' ∨ mark = 'E' then do
            let (power, rest) ← exponent? more
            let result ← scaled? value (exponent + power)
            some (sign result, rest)
          else (scaled? value exponent).map fun result => (sign result, mark :: more)
        | [] => (scaled? value exponent).map fun result => (sign result, [])
      match rest with
      | '.' :: more =>
        let places := (more.takeWhile Char.isDigit).length
        if places = 0 then none
        else
          let (value, droppedHere, rest) := significand whole 0 more
          let taken : Int := (places : Int) - droppedHere
          finish value ((droppedWhole : Int) - taken) rest
      | mark :: _ =>
        if mark = 'e' ∨ mark = 'E' ∨ droppedWhole ≠ 0 then finish whole droppedWhole rest
        else whole? sign whole rest
      | [] => if droppedWhole ≠ 0 then finish whole droppedWhole rest else whole? sign whole rest
where
  /-- An integer, or a float where no integer of 64 bits holds the value; `-0` is a float. -/
  whole? (sign : Float → Number) (value : Nat) (rest : List Char) : Option (Number × List Char) :=
    if negative then
      if value = 0 ∨ 0x8000000000000000 < value then some (sign value.toUInt64.toFloat, rest)
      else some (.int (-(value : Int)), rest)
    else some (.int value, rest)

private def word? (word : String) (value : Json) (cs : List Char) : Option (Json × List Char) :=
  if word.toList.isPrefixOf cs then some (value, cs.drop word.length) else none

mutual

/-- A value at the start of `cs`, which holds no leading blanks. -/
private def value? : Nat → Nat → List Char → Option (Json × List Char)
  | 0, _, _ => none
  | fuel + 1, depth, cs =>
    match cs with
    | '"' :: rest => (quotedTail? (rest.length + 1) [] rest).map fun (text, rest) => (.string text, rest)
    | '[' :: rest =>
      if depth = 0 then none
      else match skipBlanks rest with
        | ']' :: rest => some (.array [], rest)
        | rest => (items? fuel (depth - 1) [] rest).map fun (items, rest) => (.array items, rest)
    | '\x7b' :: rest =>
      if depth = 0 then none
      else match skipBlanks rest with
        | '\x7d' :: rest => some (.object [], rest)
        | rest =>
          (fields? fuel (depth - 1) [] rest).map fun (fields, rest) => (.object fields, rest)
    | 't' :: _ => word? "true" (.bool true) cs
    | 'f' :: _ => word? "false" (.bool false) cs
    | 'n' :: _ => word? "null" .null cs
    | '-' :: rest => (number? true rest).map fun (value, rest) => (.number value, rest)
    | _ => (number? false cs).map fun (value, rest) => (.number value, rest)

private def items? : Nat → Nat → List Json → List Char → Option (List Json × List Char)
  | 0, _, _, _ => none
  | fuel + 1, depth, done, cs =>
    match value? fuel depth cs with
    | none => none
    | some (item, rest) =>
      match skipBlanks rest with
      | ',' :: rest => items? fuel depth (item :: done) (skipBlanks rest)
      | ']' :: rest => some ((item :: done).reverse, rest)
      | _ => none

private def fields? : Nat → Nat → Fields → List Char → Option (Fields × List Char)
  | 0, _, _, _ => none
  | fuel + 1, depth, done, cs =>
    match cs with
    | '"' :: rest =>
      match quotedTail? (rest.length + 1) [] rest with
      | none => none
      | some (name, rest) =>
        match skipBlanks rest with
        | ':' :: rest =>
          match value? fuel depth (skipBlanks rest) with
          | none => none
          | some (value, rest) =>
            let done := (name, value) :: done
            match skipBlanks rest with
            | ',' :: rest => fields? fuel depth done (skipBlanks rest)
            | '\x7d' :: rest => some (Assoc.ofList done.reverse, rest)
            | _ => none
        | _ => none
    | _ => none

end

def read? (text : String) : Option Json :=
  let cs := skipBlanks text.toList
  match value? (2 * cs.length + 2) 127 cs with
  | some (value, rest) => if (skipBlanks rest).isEmpty then some value else none
  | none => none

end Visibility.Json
