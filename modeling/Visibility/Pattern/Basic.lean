import Visibility.Pattern.Assertion
import Visibility.Pattern.CharSet

set_option autoImplicit false
set_option relaxedAutoImplicit false

/-!
Patterns, in a form without needless parts.

The functions that build a pattern keep it in this form: no sequence or choice is a part of another
one, a literal is not empty and has no literal next to it, a set has no single character, and a choice
whose branches all begin with the same parts begins with them once.  How large a pattern is depends
on it.
-/

namespace Visibility

inductive Pattern where
  | empty
  | literal (chars : List Char)
  | oneOf (set : CharSet)
  | assert (assertion : Assertion)
  | group (number : Nat) (body : Pattern)
  | seq (parts : List Pattern)
  | choice (branches : List Pattern)
  /-- A lazy repetition prefers fewer turns. -/
  | repeat (body : Pattern) (least : Nat) (most : Option Nat) (isLazy : Bool)

namespace Pattern

instance : Inhabited Pattern := ⟨empty⟩

mutual

def same : Pattern → Pattern → Bool
  | empty, empty => true
  | literal a, literal b => a == b
  | oneOf a, oneOf b => a == b
  | assert a, assert b => a == b
  | group m a, group n b => m == n && same a b
  | seq as, seq bs => sameAll as bs
  | choice as, choice bs => sameAll as bs
  | .repeat a least most isLazy, .repeat b least' most' isLazy' =>
    least == least' && most == most' && isLazy == isLazy' && same a b
  | _, _ => false

def sameAll : List Pattern → List Pattern → Bool
  | [], [] => true
  | a :: as, b :: bs => same a b && sameAll as bs
  | _, _ => false

end

mutual

/-- Whether every match takes nothing of the text. -/
def isEmptyMatch : Pattern → Bool
  | empty => true
  | literal _ => false
  | oneOf _ => false
  | assert _ => true
  | group _ body => isEmptyMatch body
  | seq parts => areEmptyMatches parts
  | choice branches => areEmptyMatches branches
  | .repeat body _ most _ => isEmptyMatch body && most.isSome

def areEmptyMatches : List Pattern → Bool
  | [] => true
  | part :: rest => isEmptyMatch part && areEmptyMatches rest

end

mutual

def isAtStart : Pattern → Bool
  | assert assertion => assertion = .textStart
  | group _ body => isAtStart body
  | seq parts => leadIsAtStart parts
  | choice branches => allAtStart branches
  | .repeat body least _ _ => 0 < least && isAtStart body
  | _ => false

/-- Whether one of the parts is, up to the first that can take something. -/
def leadIsAtStart : List Pattern → Bool
  | [] => false
  | part :: rest => isAtStart part || (isEmptyMatch part && leadIsAtStart rest)

def allAtStart : List Pattern → Bool
  | [] => true
  | branch :: rest => isAtStart branch && allAtStart rest

end

mutual

def isAtEnd : Pattern → Bool
  | assert assertion => assertion = .textEnd
  | group _ body => isAtEnd body
  | seq parts => tailIsAtEnd false parts
  | choice branches => allAtEnd branches
  | .repeat body least _ _ => 0 < least && isAtEnd body
  | _ => false

/-- Whether one of the parts is, from the last that can take something on.  `found` tells whether one
of those before the list is. -/
def tailIsAtEnd : Bool → List Pattern → Bool
  | found, [] => found
  | found, part :: rest => tailIsAtEnd (isAtEnd part || (found && isEmptyMatch part)) rest

def allAtEnd : List Pattern → Bool
  | [] => true
  | branch :: rest => isAtEnd branch && allAtEnd rest

end

def never : Pattern := oneOf .empty

def char (c : Char) : Pattern := literal [c]

def ofSet (set : CharSet) : Pattern :=
  match set.single? with
  | some c => char c
  | none => oneOf set

private def partsOf : Pattern → List Pattern
  | empty => []
  | seq parts => parts
  | pattern => [pattern]

/-- Puts a part before others; a literal becomes one with a literal after it. -/
private def prepend (part : Pattern) (rest : List Pattern) : List Pattern :=
  match part, rest with
  | literal a, literal b :: rest => literal (a ++ b) :: rest
  | part, rest => part :: rest

def seqAll (patterns : List Pattern) : Pattern :=
  match (patterns.flatMap partsOf).foldr prepend [] with
  | [] => empty
  | [part] => part
  | parts => seq parts

private def branchesOf : Pattern → List Pattern
  | choice branches => branches
  | pattern => [pattern]

private def char? : Pattern → Option Char
  | literal [c] => some c
  | _ => none

private def set? : Pattern → Option CharSet
  | oneOf set => some set
  | _ => none

/-- A choice between branches, or the set that it amounts to. -/
private def choiceFlat (patterns : List Pattern) : Pattern :=
  match patterns.flatMap branchesOf with
  | [] => never
  | [branch] => branch
  | branches =>
    match branches.mapM char? with
    | some chars => ofSet (.ofChars chars)
    | none =>
      match branches.mapM set? with
      | some sets => ofSet (.ofRanges (sets.flatMap CharSet.ranges))
      | none => choice branches

/-- The parts with which both lists begin. -/
private def commonLead : List Pattern → List Pattern → List Pattern
  | a :: as, b :: bs => if same a b then a :: commonLead as bs else []
  | _, _ => []

private def seqParts? : Pattern → Option (List Pattern)
  | seq parts => some parts
  | _ => none

def choiceAll (patterns : List Pattern) : Pattern :=
  match choiceFlat patterns with
  | choice branches =>
    match branches.mapM seqParts? with
    | some (first :: others) =>
      match others.foldl commonLead first with
      | [] => choice branches
      | lead =>
        let rest := (first :: others).map fun parts => seqAll (parts.drop lead.length)
        seqAll (lead ++ [choiceFlat rest])
    | _ => choice branches
  | pattern => pattern

/-- A repetition; one of a body that takes nothing has at most one turn. -/
def repeated (body : Pattern) (least : Nat) (most : Option Nat) (isLazy : Bool) : Pattern :=
  let (least, most) : Nat × Option Nat :=
    if body.isEmptyMatch then (min least 1, some ((most.map (min · 1)).getD 1)) else (least, most)
  if least = 0 ∧ most = some 0 then empty
  else if least = 1 ∧ most = some 1 then body
  else .repeat body least most isLazy

end Pattern

end Visibility
