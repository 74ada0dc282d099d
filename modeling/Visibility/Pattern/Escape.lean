import Visibility.Pattern.Flags

set_option autoImplicit false
set_option relaxedAutoImplicit false

/-!
What a backslash in a pattern stands for.
-/

namespace Visibility.Pattern

inductive Escape where
  | char (c : Char)
  | set (set : CharSet)
  | assertion (assertion : Assertion)

namespace Escape

private def hexValue? (c : Char) : Option Nat :=
  if '0' ≤ c ∧ c ≤ '9' then some (c.toNat - '0'.toNat)
  else if 'a' ≤ c ∧ c ≤ 'f' then some (c.toNat - 'a'.toNat + 10)
  else if 'A' ≤ c ∧ c ≤ 'F' then some (c.toNat - 'A'.toNat + 10)
  else none

private def hexChar? (digits : List Char) : Option Char := do
  let values ← digits.mapM hexValue?
  let code := values.foldl (fun n d => min (16 * n + d) 0x110000) 0
  if !digits.isEmpty && code.isValidChar then some (Char.ofNat code) else none

private def take? (flags : Flags) : Nat → List Char → Option (List Char × List Char)
  | 0, cs => some ([], cs)
  | _ + 1, [] => none
  | count + 1, c :: rest => do
    let (taken, rest) ← take? flags count (flags.skip rest)
    return (c :: taken, rest)

private def takeWhile (flags : Flags) (p : Char → Bool) : Nat → List Char → List Char × List Char
  | 0, cs => ([], cs)
  | _ + 1, [] => ([], [])
  | fuel + 1, c :: rest =>
    if p c then
      let (taken, rest) := takeWhile flags p fuel (flags.skip rest)
      (c :: taken, rest)
    else ([], c :: rest)

/-- A character given by its code after `\x`, `\u` or `\U`.  A single octet stands for a character
only where it is one of ASCII. -/
private def hex? (flags : Flags) (width : Nat) (cs : List Char) : Option (Char × List Char) :=
  match flags.skip cs with
  | '\x7b' :: rest =>
    let rest := flags.skip rest
    match takeWhile flags (· ≠ '\x7d') rest.length rest with
    | (_, []) => none
    | (digits, _ :: after) => (hexChar? digits).map fun c => (c, after)
  | cs => do
    let (digits, after) ← take? flags width cs
    let c ← hexChar? digits
    if flags.asciiOnly && width = 2 && 0x80 ≤ c.toNat then none
    return (c, after)

private def edgeNames : List (String × WordEdge) :=
  [("start", .start), ("end", .finish), ("start-half", .startHalf), ("end-half", .finishHalf)]

/-- What follows `\b`.  A brace with a letter or a hyphen after it opens a name. -/
private def edge? (flags : Flags) (cs : List Char) : Option (WordEdge × List Char) :=
  match cs with
  | '\x7b' :: inner =>
    let inName (c : Char) : Bool := c.isAlpha || c = '-'
    let inner := flags.skip inner
    match takeWhile flags inName inner.length inner with
    | ([], _) => some (.boundary, cs)
    | (name, '\x7d' :: rest) => (edgeNames.lookup (String.ofList name)).map fun edge => (edge, rest)
    | _ => none
  | _ => some (.boundary, cs)

/-- Characters that stand for themselves after a backslash: marks of ASCII but for angle brackets. -/
private def isMark (c : Char) : Bool :=
  !c.isAlphanum && c.toNat < 128 && c != '<' && c != '>'

private def class? (flags : Flags) (negated : Bool) (all : CharSet) (name : String) :
    Option CharSet := do
  flags.negate? negated (← if flags.asciiOnly then CharSet.named? name else some all)

def read? (flags : Flags) (cs : List Char) : Option (Escape × List Char) :=
  match cs with
  | [] => none
  | c :: rest =>
    let char (c : Char) : Option (Escape × List Char) := some (.char c, rest)
    let set (all : CharSet) (name : String) : Option (Escape × List Char) :=
      (class? flags c.isUpper all name).map fun set => (.set set, rest)
    let edge (edge : WordEdge) (rest : List Char) : Escape × List Char :=
      (.assertion (.word edge flags.asciiOnly), rest)
    let hex (width : Nat) : Option (Escape × List Char) :=
      (hex? flags width rest).map fun (c, after) => (.char c, after)
    if isMark c then char c
    else
      match c with
      | 'd' | 'D' => set .digit "digit"
      | 'w' | 'W' => set .word "word"
      | 's' | 'S' => set .blank "space"
      | 'x' => hex 2
      | 'u' => hex 4
      | 'U' => hex 8
      | 'a' => char '\x07'
      | 'f' => char '\x0c'
      | 't' => char '\t'
      | 'n' => char '\n'
      | 'r' => char '\r'
      | 'v' => char '\x0b'
      | 'A' => some (.assertion .textStart, rest)
      | 'z' => some (.assertion .textEnd, rest)
      | 'B' => some (edge .noBoundary rest)
      | '<' => some (edge .start rest)
      | '>' => some (edge .finish rest)
      | 'b' => (edge? flags rest).map fun (kind, rest) => edge kind rest
      | _ => none

end Escape

end Visibility.Pattern
