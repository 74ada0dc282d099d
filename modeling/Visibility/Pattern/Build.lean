import Visibility.Pattern.Program

set_option autoImplicit false
set_option relaxedAutoImplicit false

/-!
Building programs.

A program is built state by state; a state whose successor is not known yet is linked to it later.  A
program that grows too large is given up.
-/

namespace Visibility.Program

/-- A program that is being built.  Some states are shared: the last one that was built is found again
by its arcs, unless other arcs took its place in the table. -/
structure Builder where
  states : Array State := #[]
  weight : Nat := 0
  shared : Array (Option (List Arc × Nat)) := Array.replicate 10000 none

/-- A step of the building; it gives up a program that grows too large. -/
abbrev Build := StateT Builder Option

/-- Some states of a program: where they are entered, and the state to be linked to what follows. -/
structure Fragment where
  first : Nat
  last : Nat

def add (state : State) : Build Nat := fun builder =>
  let weight := builder.weight + state.weight
  if maxWeight < weight then none
  else some (builder.states.size,
    { builder with states := builder.states.push state, weight := weight })

/-- The state that goes on at `next`; one that splits goes on there too. -/
def State.linked (next : Nat) : State → State
  | pass _ => pass next
  | check assertion _ => check assertion next
  | read arc => read { arc with next := next }
  | split nexts => split (nexts.push next)
  | state => state

def State.isSplit : State → Bool
  | split _ => true
  | _ => false

def link (state next : Nat) : Build Unit := fun builder =>
  let added := if (builder.states[state]?).any State.isSplit then 4 else 0
  let weight := builder.weight + added
  if maxWeight < weight then none
  else
    let states := builder.states.modify state (State.linked next)
    some ((), { builder with states := states, weight := weight })

def single (state : State) : Build Fragment := do
  let number ← add state
  return ⟨number, number⟩

def join (a b : Fragment) : Build Fragment := do
  link a.last b.first
  return ⟨a.first, b.last⟩

def chain : List (Build Fragment) → Build Fragment
  | [] => single (.pass 0)
  | first :: rest => do chainAfter (← first) rest
where
  chainAfter (done : Fragment) : List (Build Fragment) → Build Fragment
    | [] => pure done
    | next :: rest => do chainAfter (← join done (← next)) rest

def branch : List (Build Fragment) → Build Fragment
  | [] => single (.choose [])
  | [only] => only
  | first :: second :: rest => do
    let first ← first
    let second ← second
    let split ← add (.split #[])
    let last ← add (.pass 0)
    for fragment in [first, second] do
      link split fragment.first
      link fragment.last last
    for build in rest do
      let fragment ← build
      link split fragment.first
      link fragment.last last
    return ⟨split, last⟩

def againAfter (body : Build Fragment) : Nat → Fragment → Build Fragment
  | 0, done => pure done
  | count + 1, done => do againAfter body count (← join done (← body))

def exactly (body : Build Fragment) : Nat → Build Fragment
  | 0 => single (.pass 0)
  | count + 1 => do againAfter body count (← body)

def optional (body : Build Fragment) : Build Fragment := do
  let split ← add (.split #[])
  let body ← body
  let last ← add (.pass 0)
  link split body.first
  link split last
  link body.last last
  return ⟨split, last⟩

/-- A fragment any number of times.  One that may take nothing is left when it did, so that it is not
entered again. -/
def star (body : Build Fragment) (takesSome : Bool) : Build Fragment := do
  if takesSome then
    let split ← add (.split #[])
    let body ← body
    link split body.first
    link body.last split
    return ⟨split, split⟩
  else
    let body ← body
    let again ← add (.split #[])
    link body.last again
    link again body.first
    let enter ← add (.split #[])
    let last ← add (.pass 0)
    link enter body.first
    link enter last
    link again last
    return ⟨enter, last⟩

def plus (body : Build Fragment) : Build Fragment := do
  let body ← body
  let split ← add (.split #[])
  link body.last split
  link split body.first
  return ⟨body.first, split⟩

/-- At most so many turns after the state `done`; each can be left out for `last`. -/
def turnsAfter (body : Build Fragment) (last : Nat) : Nat → Nat → Build Nat
  | 0, done => pure done
  | count + 1, done => do
    let split ← add (.split #[])
    let turn ← body
    link done split
    link split turn.first
    link split last
    turnsAfter body last count turn.last

def between (body : Build Fragment) (least most : Nat) : Build Fragment := do
  let needed ← exactly body least
  let last ← add (.pass 0)
  let done ← turnsAfter body last (most - least) needed.last
  link done last
  return ⟨needed.first, last⟩

def repetition (body : Build Fragment) (takesSome : Bool) (least : Nat) (most : Option Nat) :
    Build Fragment :=
  match least, most with
  | 0, some 1 => optional body
  | 0, none => star body takesSome
  | 1, none => plus body
  | least, none => do
    let needed ← exactly body (least - 1)
    join needed (← plus body)
  | least, some most => if least = most then exactly body least else between body least most

end Visibility.Program
