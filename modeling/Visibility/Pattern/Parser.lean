import Visibility.Pattern.Bracket
import Visibility.Text.Letter

set_option autoImplicit false
set_option relaxedAutoImplicit false

/-!
Reading the text of a pattern.

There are no look-arounds and no references back to a group.  Flags in a group `(?flags)` hold to
the end of the enclosing group.  Groups, repetitions, sequences, choices and classes may be nested
250 deep.
-/

namespace Visibility.Pattern

private def digits (flags : Flags) : Nat → List Char → List Char → List Char × List Char
  | 0, done, cs => (done.reverse, cs)
  | _ + 1, done, [] => (done.reverse, [])
  | fuel + 1, done, c :: rest =>
    if c.isDigit then digits flags fuel (c :: done) (flags.skip rest) else (done.reverse, c :: rest)

private def number? (flags : Flags) (fuel : Nat) (cs : List Char) : Option Nat × List Char :=
  let cs := cs.dropWhile Text.isBlank
  let (ds, rest) := digits flags fuel [] cs
  let value := ds.foldl (fun n c => min (10 * n + (c.toNat - '0'.toNat)) 0x100000000) 0
  (if ds.isEmpty ∨ value = 0x100000000 then none else some value, rest.dropWhile Text.isBlank)

private def bounds? (flags : Flags) (fuel : Nat) (cs : List Char) :
    Option (Nat × Option Nat × List Char) :=
  match number? flags fuel (flags.skip cs) with
  | (none, _) => none
  | (some least, rest) =>
    match rest with
    | '\x7d' :: rest => some (least, some least, rest)
    | ',' :: rest =>
      match flags.skip rest with
      | '\x7d' :: rest => some (least, none, rest)
      | rest =>
        match number? flags fuel rest with
        | (some most, '\x7d' :: rest) =>
          if least ≤ most then some (least, some most, rest) else none
        | _ => none
    | _ => none

/-- Drops the mark after a repetition, and tells whether it is there. -/
private def mark : List Char → Bool × List Char
  | '?' :: rest => (true, rest)
  | rest => (false, rest)

private inductive Opening where
  /-- A group whose matches have a number, and perhaps a name. -/
  | numbered (name : Option (List Char))
  | plain (flags : Flags)
  | setFlags (flags : Flags)

private def groupName? (cs : List Char) : Option (Opening × List Char) :=
  match cs.dropWhile (· ≠ '>') with
  | [] => none
  | _ :: rest =>
    let inName (c : Char) : Bool :=
      ['_', '.', '[', ']'].contains c || Text.isLetter c || Text.isNumeral c
    match cs.takeWhile (· ≠ '>') with
    | [] => none
    | first :: more =>
      if (first = '_' || Text.isLetter first) && more.all inName then
        some (.numbered (some (first :: more)), rest)
      else none

private def opening? (flags : Flags) (cs : List Char) : Option (Opening × List Char) :=
  match flags.skip cs with
  | '?' :: '=' :: _ => none
  | '?' :: '!' :: _ => none
  | '?' :: '<' :: '=' :: _ => none
  | '?' :: '<' :: '!' :: _ => none
  | '?' :: 'P' :: '<' :: rest => groupName? rest
  | '?' :: '<' :: rest => groupName? rest
  | '?' :: rest =>
    match Flags.read? [] false rest flags with
    | some (inner, _, ':' :: rest) => some (.plain inner, rest)
    | some (inner, seen, _ :: rest) => if seen.isEmpty then none else some (.setFlags inner, rest)
    | _ => none
  | rest => some (.numbered none, rest)

/-- A pattern, and how deep its syntax nests. -/
private structure Piece where
  pattern : Pattern
  depth : Nat := 0

private def Piece.combine (pieces : List Piece) (build : List Pattern → Pattern) : Piece :=
  let deepest := pieces.foldl (fun depth piece => max depth piece.depth) 0
  ⟨build (pieces.map Piece.pattern), if pieces.length < 2 then deepest else deepest + 1⟩

/-- A part of a sequence: a piece that a repetition may follow, or the mark of a flag group. -/
private inductive Part where
  | piece (piece : Piece)
  | flagMark

private def Part.toPiece : Part → Piece
  | .piece read => read
  | .flagMark => ⟨.empty, 0⟩

/-- The branches of one group: finished ones and the parts of the current one, both reversed, with
the names of groups and how many are numbered so far. -/
private structure Branches where
  finished : List Piece := []
  parts : List Part := []
  names : List (List Char) := []
  count : Nat := 0

private def Branches.push (branches : Branches) (part : Part) : Branches :=
  { branches with parts := part :: branches.parts }

private def Branches.add (branches : Branches) (pattern : Pattern) : Branches :=
  branches.push (.piece ⟨pattern, 0⟩)

private def Branches.current (branches : Branches) : Piece :=
  .combine (branches.parts.reverse.map Part.toPiece) seqAll

private def Branches.split (branches : Branches) : Branches :=
  { branches with finished := branches.current :: branches.finished, parts := [] }

private def Branches.toPiece (branches : Branches) : Piece :=
  .combine (branches.current :: branches.finished).reverse choiceAll

private def Branches.repeat? (branches : Branches) (flags : Flags) (least : Nat) (most : Option Nat)
    (marked : Bool) : Option Branches :=
  match branches.parts with
  | .piece last :: rest =>
    let pattern := repeated last.pattern least most (marked != flags.lazyFirst)
    some { branches with parts := .piece ⟨pattern, last.depth + 1⟩ :: rest }
  | _ => none

private def Branches.close (outer group : Branches) (number : Option Nat) : Branches :=
  let inner := group.toPiece
  let pattern := match number with
    | some number => .group number inner.pattern
    | none => inner.pattern
  { outer with
    names := group.names
    count := group.count
    parts := .piece ⟨pattern, inner.depth + 1⟩ :: outer.parts }

/-- Reads branches up to a closing parenthesis or the end, which stays; `outer` bounds the nesting of
groups. -/
private def branches? : Nat → Nat → Flags → Branches → List Char →
    Option (Branches × List Char)
  | 0, _, _, _, _ => none
  | fuel + 1, outer, flags, branches, cs =>
    let go (branches : Branches) (rest : List Char) : Option (Branches × List Char) :=
      branches? fuel outer flags branches rest
    let repetition (least : Nat) (most : Option Nat) (rest : List Char) :
        Option (Branches × List Char) :=
      let (marked, rest) := mark rest
      (branches.repeat? flags least most marked).bind fun branches => go branches rest
    let group (inner : Flags) (start : Branches) (number : Option Nat) (rest : List Char) :
        Option (Branches × List Char) :=
      if outer = 0 then none
      else
        match branches? fuel (outer - 1) inner start rest with
        | some (read, ')' :: rest) => go (branches.close read number) rest
        | _ => none
    match flags.skip cs with
    | [] => some (branches, [])
    | ')' :: rest => some (branches, ')' :: rest)
    | '|' :: rest => go branches.split rest
    | '(' :: rest =>
      match opening? flags rest with
      | none => none
      | some (.setFlags inner, rest) => branches? fuel outer inner (branches.push .flagMark) rest
      | some (.plain inner, rest) =>
        group inner { names := branches.names, count := branches.count } none rest
      | some (.numbered name, rest) =>
        if name.any branches.names.contains then none
        else
          let number := branches.count + 1
          group flags { names := name.toList ++ branches.names, count := number } (some number) rest
    | '[' :: rest => do
      let (read, rest) ← Bracket.read? flags fuel rest
      go (branches.push (.piece ⟨ofSet read.set, read.depth⟩)) rest
    | '?' :: rest => repetition 0 (some 1) rest
    | '*' :: rest => repetition 0 none rest
    | '+' :: rest => repetition 1 none rest
    | '\x7b' :: rest => do
      let (least, most, rest) ← bounds? flags fuel rest
      repetition least most (flags.skip rest)
    | '\\' :: rest =>
      match Escape.read? flags rest with
      | none => none
      | some (.char c, rest) => go (branches.add (flags.char c)) rest
      | some (.set set, rest) => go (branches.add (ofSet set)) rest
      | some (.assertion assertion, rest) => go (branches.add (.assert assertion)) rest
    | '.' :: rest => do go (branches.add (← flags.dot?)) rest
    | '^' :: rest => go (branches.add (.assert flags.caret)) rest
    | '$' :: rest => go (branches.add (.assert flags.dollar)) rest
    | c :: rest => go (branches.add (flags.char c)) rest

/-- The pattern that a text spells, if it is well-formed and does not nest too deep. -/
def parse? (flags : Flags) (text : String) : Option Pattern :=
  let cs := text.toList
  match branches? (2 * cs.length + 2) Bracket.maxDepth flags {} cs with
  | some (branches, []) =>
    let piece := branches.toPiece
    if piece.depth ≤ Bracket.maxDepth then some piece.pattern else none
  | _ => none

end Visibility.Pattern
