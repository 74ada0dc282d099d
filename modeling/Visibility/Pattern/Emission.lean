import Visibility.Pattern.Trie

set_option autoImplicit false
set_option relaxedAutoImplicit false

/-!
The program of a pattern.

A pattern is small enough when both of its programs are: the one that reads a text forward and the one
that reads it backward.
-/

namespace Visibility.Program

private def mix (hash : UInt64) (number : Nat) : UInt64 :=
  (hash ^^^ number.toUInt64) * 1099511628211

private def seed : UInt64 := 14695981039346656037

/-- The place of arcs in the table, by their octets and then their states. -/
private def placeOf (arcs : List Arc) : Nat :=
  let hash := arcs.foldl (fun hash arc =>
    mix (mix (mix hash arc.range.first.toNat) arc.range.last.toNat) arc.next) seed
  (hash % 10000).toNat

private def placeOfLast (arc : Arc) : Nat :=
  let hash := mix (mix (mix seed arc.next) arc.range.first.toNat) arc.range.last.toNat
  (hash % 1000).toNat

/-- A state with these arcs, built unless the table has it. -/
private def share (arcs : List Arc) (place : Nat) (state : State) : Build Nat := fun builder =>
  let known := match builder.shared[place]? with
    | some (some (others, number)) => if others = arcs then some number else none
    | _ => none
  match known with
  | some number => some (number, builder)
  | none =>
    match add state builder with
    | some (number, builder) =>
      let shared := builder.shared.setIfInBounds place (some (arcs, number))
      some (number, { builder with shared := shared })
    | none => none

private def byLead (runs : List OctetRun) : List (OctetRange × List OctetRun) :=
  runs.foldr (fun run groups =>
    match run, groups with
    | [], groups => groups
    | lead :: tail, (other, tails) :: rest =>
      if lead = other then (lead, tail :: tails) :: rest
      else (lead, [tail]) :: (other, tails) :: rest
    | lead :: tail, [] => [(lead, [tail])]) []

/-- The state from which ascending runs lead to `target`; they have no more than `depth` octets. -/
private def merged (target : Nat) : Nat → List OctetRun → Build Nat
  | 0, _ => pure target
  | depth + 1, runs => do
    let arcs ← (byLead runs).mapM fun (lead, tails) => do
      let next ← if tails.all List.isEmpty then pure target else merged target depth tails
      return Arc.mk lead next
    share arcs (placeOf arcs) (.choose arcs)

/-- The state from which the octets of a run lead to `target`, read from the last one back. -/
private def suffix (target : Nat) (run : OctetRun) : Build Nat :=
  run.foldlM (fun next range =>
    let arc : Arc := ⟨range, next⟩
    share [arc] (placeOfLast arc) (.read arc)) target

private def octetOf (ranges : List OctetRange) : Build Fragment := do
  let last ← add (.pass 0)
  return ⟨← add (.choose (ranges.map fun range => ⟨range, last⟩)), last⟩

/-- The octets of ascending runs.  Read forward, runs with the same lead share it; read backward, runs
with the same first octets share those. -/
private def ofRuns (reading : Reading) (runs : List OctetRun) : Build Fragment :=
  match reading with
  | .forward => do
    let last ← add (.pass 0)
    return ⟨← merged last 4 runs, last⟩
  | .backward => do
    let split ← add (.split #[])
    let last ← add (.pass 0)
    for run in runs do
      link split (← suffix last run)
    return ⟨split, last⟩

private def grouped (reading : Reading) (body : Build Fragment) : Build Fragment :=
  match reading with
  | .forward => do
    let first ← add (.pass 0)
    let body ← body
    let last ← add (.pass 0)
    link first body.first
    link body.last last
    return ⟨first, last⟩
  | .backward => body

structure Piece where
  build : Build Fragment
  /-- The least number of octets that a match takes; none if some part never matches. -/
  leastLength : Option Nat

private def Piece.oneOf (reading : Reading) (set : CharSet) : Piece :=
  let length := set.ranges.head?.map fun range => (Char.ofNat range.first).utf8Size
  if set.isAscii then
    ⟨octetOf (set.ranges.map fun range => .marked 0 range.first range.last), length⟩
  else ⟨ofRuns reading set.octetRuns, length⟩

private def Piece.literal (octets : List UInt8) : Piece :=
  ⟨chain (octets.map fun octet => single (.read ⟨⟨octet, octet⟩, 0⟩)), some octets.length⟩

private def Piece.seq (reading : Reading) (pieces : List Piece) : Piece :=
  let length := (pieces.mapM Piece.leastLength).map fun lengths => lengths.foldl (· + ·) 0
  ⟨chain (reading.order (pieces.map Piece.build)), length⟩

private def Piece.choice (allWords? : Option (List (List UInt8))) (pieces : List Piece) : Piece :=
  let length := (pieces.mapM Piece.leastLength).bind List.min?
  match allWords? with
  | some texts => ⟨words texts, length⟩
  | none => ⟨branch (pieces.map Piece.build), length⟩

private def Piece.repeat (body : Piece) (least : Nat) (most : Option Nat) : Piece :=
  ⟨repetition body.build (body.leastLength.any (0 < ·)) least most,
    body.leastLength.map (· * least)⟩

private def encode (reading : Reading) (chars : List Char) : List UInt8 :=
  reading.order (chars.flatMap String.utf8EncodeChar)

private def word? (reading : Reading) : Pattern → Option (List UInt8)
  | .literal chars => some (encode reading chars)
  | _ => none

mutual

/-- The states of a pattern.  A group has states of its own where the text is read forward. -/
def emit (reading : Reading) : Pattern → Piece
  | .empty => ⟨single (.pass 0), some 0⟩
  | .literal chars => .literal (encode reading chars)
  | .oneOf set => .oneOf reading set
  | .assert assertion => ⟨single (.check assertion 0), some 0⟩
  | .group _ body =>
    let body := emit reading body
    ⟨grouped reading body.build, body.leastLength⟩
  | .seq parts => .seq reading (emitAll reading parts)
  | .choice branches => .choice (branches.mapM (word? reading)) (emitAll reading branches)
  | .repeat body least most _ => .repeat (emit reading body) least most

def emitAll (reading : Reading) : List Pattern → List Piece
  | [] => []
  | pattern :: rest => emit reading pattern :: emitAll reading rest

end

/-- What goes before a pattern: anything, or nothing where a match has to begin at the end from which
the text is read. -/
private def lead (reading : Reading) (pattern : Pattern) : Build Fragment :=
  let isAnchored := match reading with
    | .forward => pattern.isAtStart
    | .backward => pattern.isAtEnd
  if isAnchored then single (.pass 0)
  else star (octetOf [⟨0x00, 0xFF⟩]) true

private def build (reading : Reading) (pattern : Pattern) : Build Nat := do
  let lead ← lead reading pattern
  let body ← grouped reading (emit reading pattern).build
  let accept ← add .accept
  link body.last accept
  link lead.last body.first
  return lead.first

/-- The program that reads a text in the given way; none if it is too large. -/
def read? (reading : Reading) (pattern : Pattern) : Option Program :=
  ((build reading pattern).run {}).map fun (start, builder) => ⟨builder.states, start⟩

def ofPattern? (pattern : Pattern) : Option Program := do
  let program ← read? .forward pattern
  let _ ← read? .backward pattern
  return program

end Visibility.Program
