import Visibility.Pattern.Build

set_option autoImplicit false
set_option relaxedAutoImplicit false

/-!
Choices between words, merged as far as the words begin alike.
-/

namespace Visibility.Program

/-- Words over octets.  Where a word ends and others go on, the arcs that were there before are done
with: later words get arcs of their own, so that an earlier word is preferred. -/
inductive Trie where
  | node (done : List (List (UInt8 × Trie))) (arcs : List (UInt8 × Trie))

namespace Trie

def empty : Trie := .node [] []

def hasArcs : Trie → Bool
  | .node done arcs => !arcs.isEmpty || done.any fun arcs => !arcs.isEmpty

private def place (octet : UInt8) (trie : Trie) : List (UInt8 × Trie) → List (UInt8 × Trie)
  | [] => [(octet, trie)]
  | (other, known) :: rest =>
    if octet < other then (octet, trie) :: (other, known) :: rest
    else (other, known) :: place octet trie rest

def insert : List UInt8 → Trie → Trie
  | [], .node done arcs =>
    if !(node done arcs).hasArcs && !done.isEmpty then .node done arcs
    else .node (done ++ [arcs]) []
  | octet :: rest, .node done arcs =>
    if arcs.any fun arc => arc.1 == octet then
      .node done (arcs.map fun (other, trie) =>
        if other = octet then (other, insert rest trie) else (other, trie))
    else .node done (place octet (insert rest empty) arcs)

mutual

/-- The state from which the words of a trie lead to `last`. -/
def build (last : Nat) : Trie → Build Nat
  | .node done arcs => do
    let nexts ← buildDone last done
    let next ← buildArcs last arcs
    add (.split (nexts ++ next.toList).toArray)

private def buildDone (last : Nat) : List (List (UInt8 × Trie)) → Build (List Nat)
  | [] => pure []
  | arcs :: rest => do
    let next ← buildArcs last arcs
    return next.toList ++ last :: (← buildDone last rest)

private def buildArcs (last : Nat) (arcs : List (UInt8 × Trie)) : Build (Option Nat) := do
  match ← arcsOf last arcs with
  | [] => return none
  | [arc] => return some (← add (.read arc))
  | arcs => return some (← add (.choose arcs))

private def arcsOf (last : Nat) : List (UInt8 × Trie) → Build (List Arc)
  | [] => pure []
  | (octet, trie) :: rest => do
    let next ← if trie.hasArcs then build last trie else pure last
    return ⟨⟨octet, octet⟩, next⟩ :: (← arcsOf last rest)

end

end Trie

def words (words : List (List UInt8)) : Build Fragment := do
  let last ← add (.pass 0)
  let trie := words.foldl (fun trie word => trie.insert word) Trie.empty
  return ⟨← trie.build last, last⟩

end Visibility.Program
