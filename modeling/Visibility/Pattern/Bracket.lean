import Visibility.Pattern.Escape

set_option autoImplicit false
set_option relaxedAutoImplicit false

/-!
Classes of characters in brackets.
-/

namespace Visibility.Pattern.Bracket

/-- How deep the syntax of a pattern may nest. -/
def maxDepth : Nat := 250

/-- A set of characters, and how deep its syntax nests. -/
structure Nested where
  set : CharSet
  depth : Nat := 0

inductive Operator where
  | intersection
  | difference
  | symmetricDifference
deriving DecidableEq, Repr

def Operator.apply (operator : Operator) (a b : CharSet) : CharSet :=
  match operator with
  | intersection => a.intersection b
  | difference => a.difference b
  | symmetricDifference => a.symmetricDifference b

/-- The items of a class read so far: those since the last operator, and what stands before it. -/
private structure Items where
  ranges : List CodeRange := []
  count : Nat := 0
  depth : Nat := 0
  left : Option (Operator × Nested) := none

private def Items.add (items : Items) (item : Nested) : Items :=
  { items with
    ranges := item.set.ranges.foldl (fun ranges range => range :: ranges) items.ranges
    count := items.count + 1
    depth := max items.depth item.depth }

/-- The set of the items.  Case variants are added before two sets are combined. -/
private def Items.value (flags : Flags) (items : Items) : Nested :=
  let right : Nested :=
    ⟨.ofRanges items.ranges, if items.count < 2 then items.depth else items.depth + 1⟩
  match items.left with
  | none => right
  | some (operator, left) =>
    ⟨operator.apply (flags.fold left.set) (flags.fold right.set), max left.depth right.depth + 1⟩

private def Items.operator (flags : Flags) (items : Items) (operator : Operator) : Items :=
  { left := some (operator, items.value flags) }

/-- A class `[:name:]` or `[:^name:]` after its bracket; case variants are added before it is
negated. -/
private def named? (flags : Flags) (cs : List Char) : Option (Option CharSet × List Char) :=
  match cs with
  | ':' :: rest =>
    let (negated, rest) : Bool × List Char := match rest with
      | '^' :: rest => (true, rest)
      | rest => (false, rest)
    match rest.dropWhile (· ≠ ':') with
    | ':' :: ']' :: after =>
      (CharSet.named? (String.ofList (rest.takeWhile (· ≠ ':')))).map fun set =>
        (flags.negate? negated (flags.fold set), after)
    | _ => none
  | _ => none

private def item? (flags : Flags) (cs : List Char) : Option (Escape × List Char) :=
  match cs with
  | [] => none
  | '\\' :: rest => Escape.read? flags rest
  | c :: rest => some (.char c, rest)

private def range? (flags : Flags) (low high : Char) : Option CharSet :=
  if high < low || (flags.asciiOnly && 0x80 ≤ high.toNat) then none
  else some ⟨[⟨low.toNat, high.toNat⟩]⟩

private def alone? (flags : Flags) : Escape → Option CharSet
  | .char c => range? flags c c
  | .set set => some set
  | .assertion _ => none

private def itemOrRange? (flags : Flags) (cs : List Char) : Option (CharSet × List Char) := do
  let (first, rest) ← item? flags cs
  match flags.skip rest with
  | [] => none
  | '-' :: more =>
    let next := flags.peek? more
    if next = some ']' ∨ next = some '-' then return (← alone? flags first, '-' :: more)
    let (second, rest) ← item? flags (flags.skip more)
    match first, second with
    | .char low, .char high => return (← range? flags low high, rest)
    | _, _ => none
  | rest => return (← alone? flags first, rest)

/-- The hyphens that open a class stand for themselves; nothing when the text ends after them. -/
private def hyphens? (flags : Flags) : Nat → Items → List Char → Option (Items × List Char)
  | 0, _, _ => none
  | _ + 1, _, [] => none
  | fuel + 1, items, c :: rest =>
    if c = '-' then hyphens? flags fuel (items.add ⟨.single '-', 0⟩) (flags.skip rest)
    else some (items, c :: rest)

mutual

private def class? (flags : Flags) : Nat → Nat → List Char → Option (Nested × List Char)
  | 0, _, _ => none
  | _, 0, _ => none
  | fuel + 1, outer + 1, cs => do
    let cs := flags.skip cs
    let (negated, cs) : Bool × List Char := match cs with
      | '^' :: rest => (true, flags.skip rest)
      | _ => (false, cs)
    let (start, cs) ← hyphens? flags fuel {} cs
    let (inner, rest) ← match cs with
      | ']' :: more =>
        if start.count ≠ 0 then items? flags fuel outer start cs
        else
          match flags.skip more with
          | [] => none
          | more => items? flags fuel outer (start.add ⟨.single ']', 0⟩) more
      | _ => items? flags fuel outer start cs
    return (⟨← flags.negate? negated (flags.fold inner.set), inner.depth + 1⟩, rest)

private def items? (flags : Flags) : Nat → Nat → Items → List Char → Option (Nested × List Char)
  | 0, _, _, _ => none
  | fuel + 1, outer, items, cs =>
    match flags.skip cs with
    | [] => none
    | '[' :: rest =>
      match named? flags rest with
      | some (set, rest) => do items? flags fuel outer (items.add ⟨← set, 0⟩) rest
      | none => do
        let (inner, rest) ← class? flags fuel outer rest
        items? flags fuel outer (items.add inner) rest
    | ']' :: rest => some (items.value flags, rest)
    | '&' :: '&' :: rest => items? flags fuel outer (items.operator flags .intersection) rest
    | '-' :: '-' :: rest => items? flags fuel outer (items.operator flags .difference) rest
    | '~' :: '~' :: rest => items? flags fuel outer (items.operator flags .symmetricDifference) rest
    | cs => do
      let (set, rest) ← itemOrRange? flags cs
      items? flags fuel outer (items.add ⟨set, 0⟩) rest

end

/-- Reads a class after its opening bracket.  `fuel` is at least twice the number of characters. -/
def read? (flags : Flags) (fuel : Nat) (cs : List Char) : Option (Nested × List Char) :=
  class? flags fuel maxDepth cs

end Visibility.Pattern.Bracket
