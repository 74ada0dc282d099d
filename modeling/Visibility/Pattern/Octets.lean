import Visibility.Pattern.CharSet

set_option autoImplicit false
set_option relaxedAutoImplicit false

/-!
The octets that write characters in UTF-8.

The characters of a range are written by the octets of a few runs: in a run each octet goes through a
range of its own, whatever the others are.
-/

namespace Visibility

/-- The octets from `first` to `last`. -/
structure OctetRange where
  first : UInt8
  last : UInt8
deriving DecidableEq, Repr

namespace OctetRange

def contains (range : OctetRange) (octet : UInt8) : Bool :=
  range.first ≤ octet && octet ≤ range.last

/-- The octets that carry the bits from `first` to `last` on top of the bits of `mark`. -/
def marked (mark first last : Nat) : OctetRange :=
  ⟨(mark + first).toUInt8, (mark + last).toUInt8⟩

def further : OctetRange := marked 0x80 0 63

end OctetRange

/-- Ranges of the octets that write a character, one after the other. -/
abbrev OctetRun := List OctetRange

namespace OctetRun

/-- The runs for the numbers from `low` to `high`, in ascending order.  The first octet carries the
bits of `mark` and what the further octets, six bits each, leave over. -/
def cover (mark : Nat) : Nat → Nat → Nat → List OctetRun
  | 0, low, high => [[.marked mark low high]]
  | further + 1, low, high =>
    let unit := Nat.pow 64 (further + 1)
    let (first, start) := (low / unit, low % unit)
    let (last, stop) := (high / unit, high % unit)
    let under (octet low high : Nat) : List OctetRun :=
      (cover 0x80 further low high).map (OctetRange.marked mark octet octet :: ·)
    if first = last then under first start stop
    else
      let isFullBelow := start = 0
      let isFullAbove := stop = unit - 1
      let low := if isFullBelow then first else first + 1
      let high := if isFullAbove then last else last - 1
      (if isFullBelow then [] else under first start (unit - 1)) ++
        (if low ≤ high then
          [.marked mark low high :: List.replicate (further + 1) OctetRange.further] else []) ++
        (if isFullAbove then [] else under last 0 stop)

/-- A range of code points that are written with equally many octets, of which the first one has a
mark of its own. -/
structure Plane where
  codes : CodeRange
  mark : Nat
  further : Nat

def planes : List Plane :=
  [⟨⟨0, 0x7F⟩, 0, 0⟩, ⟨⟨0x80, 0x7FF⟩, 0xC0, 1⟩, ⟨⟨0x800, 0xD7FF⟩, 0xE0, 2⟩,
    ⟨⟨0xE000, 0xFFFF⟩, 0xE0, 2⟩, ⟨⟨0x10000, 0x10FFFF⟩, 0xF0, 3⟩]

end OctetRun

def CodeRange.octetRuns (range : CodeRange) : List OctetRun :=
  OctetRun.planes.flatMap fun plane =>
    match range.meet? plane.codes with
    | some part => OctetRun.cover plane.mark plane.further part.first part.last
    | none => []

def CharSet.octetRuns (set : CharSet) : List OctetRun :=
  set.ranges.flatMap CodeRange.octetRuns

example : (CodeRange.mk 0x7F 0x800).octetRuns =
    [[⟨0x7F, 0x7F⟩], [⟨0xC2, 0xDF⟩, ⟨0x80, 0xBF⟩], [⟨0xE0, 0xE0⟩, ⟨0xA0, 0xA0⟩, ⟨0x80, 0x80⟩]] := by
  decide

end Visibility
