import Visibility.Expression.Evaluator
import Visibility.Mapping.Table
import Visibility.Operation
import Visibility.Text.Split

set_option autoImplicit false
set_option relaxedAutoImplicit false

/-!
The tags of a type that are active for one request.

A tag `Type:concerns.mode.verb:criteria` is active when it concerns the requested operation type or
any, when its mode fits the direction, and when its criteria, if it has any, come out true.  Criteria
that read the instance fail without one.
-/

namespace Visibility

/-- A written tag, taken apart. -/
structure GroupTag where
  raw : String
  /-- The operation group, such as `item.normalization.get`. -/
  group : String
  concerns : String
  mode : String
  verb : String
  criteria : Option String
deriving DecidableEq, Repr

namespace GroupTag

def withoutType (type raw : String) : String :=
  match Text.cutLead? (type ++ ":") raw with
  | some rest => rest
  | none => raw

/-- The first two parts between dots, and all that follows. -/
def parts (group : String) : String × String × String :=
  match Text.cutFirst? "." group with
  | none => (group, "", "")
  | some (concerns, rest) =>
    match Text.cutFirst? "." rest with
    | none => (concerns, rest, "")
    | some (mode, verb) => (concerns, mode, verb)

/-- Takes apart a tag that was given while the type's groups were walked. -/
def parse (type raw : String) : GroupTag :=
  let (group, criteria) : String × Option String :=
    match Text.cutFirst? ":" (withoutType type raw) with
    | some (group, criteria) => (group, some criteria)
    | none => (withoutType type raw, none)
  let (concerns, mode, verb) := parts group
  { raw, group, concerns, mode, verb, criteria }

def needsInstance (tag : GroupTag) : Bool :=
  match tag.criteria with
  | some criteria => Text.hasPart "object.".toList criteria.toList
  | none => false

end GroupTag

def wildcard : String := "any"

def GroupTag.fits (tag : GroupTag) (operation : OperationType) (direction : Direction)
    (policy : DirectionPolicy) : Bool :=
  let concerns := tag.concerns = operation.name ∨ tag.concerns = wildcard
  let mode := tag.mode = direction.name ∨ tag.mode = wildcard
  let modeMatters := direction = .normalization ∨ policy = .symmetric
  concerns ∧ (modeMatters → mode)

structure GroupQuery where
  operation : OperationType
  direction : Direction
  policy : DirectionPolicy := .asymmetric
  instance_ : Option Json := none
  caller : Caller

abbrev CriteriaEvaluator := String → Environment → Inquiry Bool

/-- Why the active tags of a request are not known: the first criteria that fail. -/
structure CriteriaError where
  criteria : String
  source : ExpressionError

/-- The active tags, with the criteria that were evaluated and the consultations of the caller, in
order. -/
structure ActiveGroups where
  result : Except CriteriaError (List String)
  criteria : List String := []
  consultations : List Consultation := []

def ActiveGroups.questions (active : ActiveGroups) : List Question :=
  active.consultations.filterMap Consultation.question?

namespace GroupQuery

def environment (query : GroupQuery) : Environment :=
  { object := query.instance_, caller := query.caller }

/-- Whether criteria are not evaluated because there is no instance to read. -/
def lacksInstance (query : GroupQuery) (tag : GroupTag) : Bool :=
  query.instance_.isNone && tag.needsInstance

/-- Puts a tag before the active tags after it, if it is active itself.  Criteria that fail end it. -/
def consider (query : GroupQuery) (evaluator : CriteriaEvaluator) (tag : GroupTag)
    (others : ActiveGroups) : ActiveGroups :=
  if tag.fits query.operation query.direction query.policy then
    match tag.criteria with
    | none => { others with result := others.result.map (tag.raw :: ·) }
    | some criteria =>
      if query.lacksInstance tag then others
      else
        let answer := evaluator criteria query.environment
        match answer.result with
        | .error source => ⟨.error ⟨criteria, source⟩, [criteria], answer.consultations⟩
        | .ok passed =>
          { result := if passed then others.result.map (tag.raw :: ·) else others.result
            criteria := criteria :: others.criteria
            consultations := answer.consultations ++ others.consultations }
  else others

def activeAmong (query : GroupQuery) (evaluator : CriteriaEvaluator) (type : String) :
    List String → ActiveGroups
  | [] => ⟨.ok [], [], []⟩
  | raw :: rest =>
    query.consider evaluator (GroupTag.parse type raw) (query.activeAmong evaluator type rest)

/-- The tags of a table that are active for a request, in the order of the table. -/
def active (query : GroupQuery) (evaluator : CriteriaEvaluator) (table : Table) : ActiveGroups :=
  query.activeAmong evaluator table.type table.allGroups.toList

end GroupQuery

end Visibility
