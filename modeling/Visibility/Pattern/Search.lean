import Visibility.Pattern.Emission

set_option autoImplicit false
set_option relaxedAutoImplicit false

/-!
The search for a match anywhere in a text.

A program is run on the octets of the text in all states at once.  An assertion is only reached
between two characters, and a match ends there too: what is reached inside of a character without
reading from its start is given up at its next octet.
-/

namespace Visibility.Program

structure Threads where
  /-- The last place at which a state was reached. -/
  marks : Array Nat
  /-- The states that read an octet. -/
  readers : List Nat := []
  accepted : Bool := false

structure Surroundings where
  before : Option Char
  after : Option Char

/-- Adds the states of a list and those that they go on at without reading.  `fuel` bounds how many
states are looked at. -/
def spread (program : Program) (around : Surroundings) (place : Nat) :
    Nat → List Nat → Threads → Threads
  | 0, _, threads => threads
  | _, [], threads => threads
  | fuel + 1, number :: rest, threads =>
    if threads.marks.getD number place = place then
      spread program around place fuel rest threads
    else
      let threads := { threads with marks := threads.marks.setIfInBounds number place }
      match program.states[number]? with
      | some (.pass next) => spread program around place fuel (next :: rest) threads
      | some (.check assertion next) =>
        if assertion.holds around.before around.after then
          spread program around place fuel (next :: rest) threads
        else spread program around place fuel rest threads
      | some (.split nexts) =>
        spread program around place fuel (nexts.foldr List.cons rest) threads
      | some .accept => spread program around place fuel rest { threads with accepted := true }
      | _ =>
        spread program around place fuel rest { threads with readers := number :: threads.readers }

def State.next? (octet : UInt8) : State → Option Nat
  | read arc => if arc.range.contains octet then some arc.next else none
  | choose arcs => (arcs.find? fun arc => arc.range.contains octet).map Arc.next
  | _ => none

/-- Each state goes on at most once to each of its successors, of which the weight counts more. -/
private def reach (program : Program) (fuel : Nat) (around : Surroundings) (place : Nat)
    (numbers : List Nat) (threads : Threads) : Threads :=
  program.spread around place (fuel + numbers.length) numbers
    { threads with readers := [], accepted := false }

private def step (program : Program) (fuel : Nat) (around : Surroundings)
    (state : Nat × Threads) (octet : UInt8) : Nat × Threads :=
  let (place, threads) := state
  let nexts := threads.readers.reverse.filterMap fun number =>
    program.states[number]?.bind (State.next? octet)
  (place + 1, reach program fuel around (place + 1) nexts threads)

/-- Reads on after the character `before`, until a match is found. -/
private def run (program : Program) (fuel : Nat) : List Char → Nat × Threads → Bool
  | [], (_, threads) => threads.accepted
  | c :: rest, (place, threads) =>
    threads.accepted ||
      run program fuel rest
        ((String.utf8EncodeChar c).foldl (step program fuel ⟨some c, rest.head?⟩) (place, threads))

def isMatch (program : Program) (text : String) : Bool :=
  let chars := text.toList
  let fuel := program.weight
  let threads := reach program fuel ⟨none, chars.head?⟩ 1 [program.start]
    { marks := Array.replicate program.states.size 0 }
  run program fuel chars (1, threads)

end Visibility.Program
