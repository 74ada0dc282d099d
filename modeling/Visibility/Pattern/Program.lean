import Visibility.Pattern.Basic
import Visibility.Pattern.Octets

set_option autoImplicit false
set_option relaxedAutoImplicit false

/-!
Programs that look for a pattern in the octets of a text.

A program is a list of states, which refer to each other by their numbers.
-/

namespace Visibility

/-- On an octet of the range, go on at the state `next`. -/
structure Program.Arc where
  range : OctetRange
  next : Nat
deriving DecidableEq, Repr

inductive Program.State where
  | pass (next : Nat)
  | check (assertion : Assertion) (next : Nat)
  | read (arc : Arc)
  /-- Reads an octet by one of the arcs, which lie apart. -/
  | choose (arcs : List Arc)
  /-- Goes on at all of some states. -/
  | split (nexts : Array Nat)
  | accept

structure Program where
  states : Array Program.State
  start : Nat

namespace Program

/-- The memory of a state, by which the size of programs is measured. -/
def State.weight : State → Nat
  | choose arcs => 32 + 8 * arcs.length
  | split nexts => 32 + 4 * nexts.size
  | _ => 32

def weight (program : Program) : Nat :=
  program.states.foldl (fun sum state => sum + state.weight) 0

/-- The largest weight of a program, ten times 2 ^ 20. -/
def maxWeight : Nat := 10485760

/-- Whether a program reads a text from its start on or from its end back. -/
inductive Reading where
  | forward
  | backward
deriving DecidableEq, Repr

def Reading.order {α : Type} (reading : Reading) (list : List α) : List α :=
  match reading with
  | forward => list
  | backward => list.reverse

end Program

end Visibility
