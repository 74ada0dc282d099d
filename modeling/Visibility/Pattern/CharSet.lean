import Visibility.Text.Blank
import Visibility.Text.CaseFold
import Visibility.Text.WordChar

set_option autoImplicit false
set_option relaxedAutoImplicit false

/-!
Sets of characters that a pattern can name.
-/

namespace Visibility

/-- The code points from `first` to `last`.  Both are those of characters. -/
structure CodeRange where
  first : Nat
  last : Nat
deriving DecidableEq, Repr

namespace CodeRange

def contains (range : CodeRange) (code : Nat) : Bool :=
  range.first ≤ code && code ≤ range.last

def meets (a b : CodeRange) : Bool :=
  a.first ≤ b.last && b.first ≤ a.last

def meet? (a b : CodeRange) : Option CodeRange :=
  if a.meets b then some ⟨max a.first b.first, min a.last b.last⟩ else none

def after (code : Nat) : Nat :=
  if code = 0xD7FF then 0xE000 else code + 1

def before (code : Nat) : Nat :=
  if code = 0xE000 then 0xD7FF else code - 1

/-- What is left of a range without another one. -/
def minus (a b : CodeRange) : List CodeRange :=
  if a.meets b then
    (if a.first < b.first then [⟨a.first, before b.first⟩] else []) ++
      (if b.last < a.last then [⟨after b.last, a.last⟩] else [])
  else [a]

/-- What stands between two ranges.  Where no character does, it is the characters at their ends. -/
def between (a b : CodeRange) : CodeRange :=
  let first := after a.last
  let last := before b.first
  ⟨min first last, max first last⟩

/-- Joins ascending ranges that overlap or follow each other at once. -/
def join : List CodeRange → List CodeRange
  | [] => []
  | range :: rest => joinFrom range rest
where
  joinFrom (range : CodeRange) : List CodeRange → List CodeRange
    | [] => [range]
    | next :: rest =>
      if next.first ≤ range.last + 1 then joinFrom ⟨range.first, max range.last next.last⟩ rest
      else range :: joinFrom next rest

end CodeRange

/-- A set of characters: ascending ranges of code points with gaps between them. -/
structure CharSet where
  ranges : List CodeRange
deriving DecidableEq, Repr

namespace CharSet

def ofRanges (ranges : List CodeRange) : CharSet :=
  ⟨CodeRange.join (ranges.mergeSort fun a b => a.first ≤ b.first)⟩

def empty : CharSet := ⟨[]⟩

def all : CharSet := ⟨[⟨0, 0x10FFFF⟩]⟩

def single (c : Char) : CharSet := ⟨[⟨c.toNat, c.toNat⟩]⟩

def ofCodes (codes : List Nat) : CharSet :=
  ofRanges (codes.map fun code => ⟨code, code⟩)

def ofChars (chars : List Char) : CharSet :=
  ofCodes (chars.map Char.toNat)

def ofEnds (ends : List (Nat × Nat)) : CharSet :=
  ofRanges (ends.map fun (first, last) => ⟨first, last⟩)

def contains (set : CharSet) (c : Char) : Bool :=
  set.ranges.any (·.contains c.toNat)

def isEmpty (set : CharSet) : Bool :=
  set.ranges.isEmpty

def isAscii (set : CharSet) : Bool :=
  set.ranges.all fun range => range.last < 0x80

def single? (set : CharSet) : Option Char :=
  match set.ranges with
  | [range] => if range.first = range.last then some (Char.ofNat range.first) else none
  | _ => none

def union (a b : CharSet) : CharSet :=
  ofRanges (a.ranges ++ b.ranges)

def intersection (a b : CharSet) : CharSet :=
  ⟨a.ranges.flatMap fun range => b.ranges.filterMap range.meet?⟩

def difference (a b : CharSet) : CharSet :=
  ⟨a.ranges.flatMap fun range =>
    b.ranges.foldl (fun left cut => left.flatMap fun part => part.minus cut) [range]⟩

def symmetricDifference (a b : CharSet) : CharSet :=
  (a.union b).difference (a.intersection b)

def complement (set : CharSet) : CharSet :=
  match set.ranges with
  | [] => all
  | range :: rest =>
    let start := if 0 < range.first then [⟨0, CodeRange.before range.first⟩] else []
    ⟨start ++ gapsAfter range rest⟩
where
  gapsAfter (range : CodeRange) : List CodeRange → List CodeRange
    | [] => if range.last < 0x10FFFF then [⟨CodeRange.after range.last, 0x10FFFF⟩] else []
    | next :: rest => range.between next :: gapsAfter next rest

def folded (set : CharSet) : CharSet :=
  let holds (code : Nat) : Bool := set.ranges.any (·.contains code)
  let meets (first last : Nat) : Bool := set.ranges.any (·.meets ⟨first, last⟩)
  ofRanges (set.ranges ++ (Text.foldedCodes meets holds).map fun code => ⟨code, code⟩)

def asciiFolded (set : CharSet) : CharSet :=
  let lower := (set.ranges.filterMap (·.meet? ⟨0x41, 0x5A⟩)).map fun r => ⟨r.first + 32, r.last + 32⟩
  let upper := (set.ranges.filterMap (·.meet? ⟨0x61, 0x7A⟩)).map fun r => ⟨r.first - 32, r.last - 32⟩
  ofRanges (set.ranges ++ (lower ++ upper))

def digit : CharSet := ofEnds Text.digitRanges

def word : CharSet := ofEnds Text.wordRanges

def blank : CharSet := ofEnds Text.blankRanges

def named? (name : String) : Option CharSet :=
  let lower := (0x61, 0x7A)
  let upper := (0x41, 0x5A)
  let digits := (0x30, 0x39)
  let ofEnds (ends : List (Nat × Nat)) : Option CharSet := some (ofEnds ends)
  match name with
  | "alnum" => ofEnds [digits, upper, lower]
  | "alpha" => ofEnds [upper, lower]
  | "ascii" => ofEnds [(0x00, 0x7F)]
  | "blank" => ofEnds [(0x09, 0x09), (0x20, 0x20)]
  | "cntrl" => ofEnds [(0x00, 0x1F), (0x7F, 0x7F)]
  | "digit" => ofEnds [digits]
  | "graph" => ofEnds [(0x21, 0x7E)]
  | "lower" => ofEnds [lower]
  | "print" => ofEnds [(0x20, 0x7E)]
  | "punct" => ofEnds [(0x21, 0x2F), (0x3A, 0x40), (0x5B, 0x60), (0x7B, 0x7E)]
  | "space" => ofEnds [(0x09, 0x0D), (0x20, 0x20)]
  | "upper" => ofEnds [upper]
  | "word" => ofEnds [digits, upper, (0x5F, 0x5F), lower]
  | "xdigit" => ofEnds [digits, (0x41, 0x46), (0x61, 0x66)]
  | _ => none

end CharSet

end Visibility
