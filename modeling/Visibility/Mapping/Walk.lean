import Visibility.Mapping.Definition
import Visibility.Mapping.Table
import Visibility.Resolver

set_option autoImplicit false
set_option relaxedAutoImplicit false

/-!
The walk through the trees of a definition.

Every plain field name gives the field a tag, made of the type and group under walk and of the
security condition in force.  Path segments that start with an underscore are directives:

* `_security` tags the enclosing attribute and adds its condition to all below it;
* `_security_<name>` defines a condition for siblings that are marked `_<name>`;
* `_<name>` applies that condition to the rest of a path;
* `_maxDepth`, `_serializedName` and `_ignore` set limits of the enclosing attribute.

The walk changes nothing by itself: it gives the list of steps that fill the tables, in order.
-/

namespace Visibility

/-- A tag before it is written out: the type and group it was given under, and the condition. -/
structure Tag where
  type : String
  group : String
  condition : Option String
deriving DecidableEq, Repr

def Tag.text (tag : Tag) : String :=
  match tag.condition with
  | some condition => tag.type ++ ":" ++ tag.group ++ ":" ++ condition
  | none => tag.type ++ ":" ++ tag.group

structure FieldRef where
  owner : String
  field : String
deriving DecidableEq, Repr

inductive Step where
  /-- The type has a table. -/
  | table (type : String)
  /-- The field has an entry. -/
  | entry (at_ : FieldRef)
  | tag (at_ : FieldRef) (tag : Tag)
  | catchAll (tag : Tag)
  | maxDepth (at_ : FieldRef) (depth : Nat)
  | serializedName (at_ : FieldRef) (name : String)
  | ignore (at_ : FieldRef) (flag : Bool)
deriving DecidableEq, Repr

/-- One segment of the path that a key spells. -/
inductive Segment where
  /-- The definition of a condition for the marker `_<name>`. -/
  | namedSecurity (marker : String)
  | security
  | maxDepth
  | serializedName
  | ignore
  | marker (marker : String)
  | field (name : String)
deriving DecidableEq, Repr

namespace Segment

def securityKey : String := "_security"

def namedSecurityLead : String := "_security_"

/-- The marker `_<name>` of a key `_security_<name>`. -/
def markerOf (key : String) : String :=
  String.ofList (key.toList.drop securityKey.length)

def classify (segment : String) : Segment :=
  if Text.startsWith namedSecurityLead segment then namedSecurity (markerOf segment)
  else if segment = securityKey then security
  else if Text.startsWith "_maxDepth" segment then maxDepth
  else if Text.startsWith "_serializedName" segment then serializedName
  else if Text.startsWith "_ignore" segment then ignore
  else if Text.startsWith "_" segment then marker segment
  else field segment

def path (key : String) : List String :=
  (Text.splitAt (· = '.') key.toList).map String.ofList

/-- Whole keys that are applied before the rest of their level. -/
def isHoisted (key : String) : Bool :=
  key = securityKey || (Text.startsWith namedSecurityLead key && !key.toList.contains '.')

end Segment

/-- Both conditions, the inherited one first. -/
def conjoin (inherited : Option String) (expression : String) : String :=
  match inherited with
  | some inherited => "(" ++ inherited ++ ") and (" ++ expression ++ ")"
  | none => expression

structure Scope where
  root : String
  group : String
deriving DecidableEq, Repr

namespace Scope

def origin (scope : Scope) : String :=
  "group \"" ++ scope.group ++ "\" of type \"" ++ scope.root ++ "\""

def tag (scope : Scope) (condition : Option String) : Tag :=
  ⟨scope.root, scope.group, condition⟩

def malformed {α : Type} (scope : Scope) (what : Malformation) : Except MappingError α :=
  .error (.malformed scope.origin what)

def keyName (scope : Scope) (key : Yaml) : Except MappingError String :=
  match key.text? with
  | some name => .ok name
  | none => scope.malformed (.attributeKeyNotText key.kind)

/-- The expression of a security directive, without blanks around it. -/
def expression (scope : Scope) (directive : String) (value : Yaml) : Except MappingError String :=
  match value.text?.map Text.trim with
  | some text =>
    if text.isEmpty then scope.malformed (.emptyExpression directive value.kind) else .ok text
  | none => scope.malformed (.emptyExpression directive value.kind)

def enclosing (scope : Scope) (parent : Option FieldRef) (directive : String) :
    Except MappingError FieldRef :=
  match parent with
  | some ref => .ok ref
  | none => .error (.missingParent directive scope.root scope.group)

end Scope

/-- The conditions in force on a level: the one for its plain keys, and one for each marker. -/
structure Conditions where
  inherited : Option String
  named : Dict String := .empty

namespace Conditions

def define (conditions : Conditions) (marker expression : String) : Conditions :=
  { conditions with
    named := conditions.named.insert marker (conjoin conditions.inherited expression) }

def ofMarker (conditions : Conditions) (scope : Scope) (marker : Option String) :
    Except MappingError (Option String) :=
  match marker with
  | none => .ok conditions.inherited
  | some marker =>
    match conditions.named.get? marker with
    | some condition => .ok (some condition)
    | none => .error (.unknownSecurityPrefix marker scope.root scope.group)

end Conditions

namespace Walk

def security (scope : Scope) (parent : Option FieldRef) (value : Yaml)
    (conditions : Conditions) : Except MappingError (Conditions × List Step) := do
  let expression ← scope.expression Segment.securityKey value
  let ref ← scope.enclosing parent Segment.securityKey
  let combined := conjoin conditions.inherited expression
  let tag := scope.tag (some combined)
  return ({ conditions with inherited := some combined }, [.tag ref tag, .catchAll tag])

def ownSecurity (scope : Scope) (parent : Option FieldRef) :
    Conditions → Tree → Except MappingError (Conditions × List Step)
  | conditions, [] => .ok (conditions, [])
  | conditions, (key, value) :: rest => do
    let name ← scope.keyName key
    if name = Segment.securityKey then
      let (conditions, steps) ← security scope parent value conditions
      let (conditions, more) ← ownSecurity scope parent conditions rest
      return (conditions, steps ++ more)
    else ownSecurity scope parent conditions rest

def namedSecurity (scope : Scope) : Conditions → Tree → Except MappingError Conditions
  | conditions, [] => .ok conditions
  | conditions, (key, value) :: rest => do
    let name ← scope.keyName key
    if Segment.isHoisted name ∧ name ≠ Segment.securityKey then
      let expression ← scope.expression name value
      namedSecurity scope (conditions.define (Segment.markerOf name) expression) rest
    else namedSecurity scope conditions rest

/-- The conditions that the security keys of a level put in force. -/
def hoisted (scope : Scope) (parent : Option FieldRef) (inherited : Option String) (tree : Tree) :
    Except MappingError (Conditions × List Step) := do
  let (conditions, steps) ← ownSecurity scope parent { inherited := inherited } tree
  let conditions ← namedSecurity scope conditions tree
  return (conditions, steps)

/-- Whether a value is a map with a `_security` key; its field is tagged by that key alone. -/
def guardsItself (value : Yaml) : Bool :=
  match value.pairs? with
  | some pairs => pairs.any fun pair => pair.1.text? == some Segment.securityKey
  | none => false

/-- The steps of the levels below an attribute, given the type it leads to and its condition. -/
abbrev Below := Option String → Option String → FieldRef → Except MappingError (List Step)

def descend (scope : Scope) (key : String) (value : Yaml) (below : Below)
    (owner condition : Option String) (ref : FieldRef) : Except MappingError (List Step) :=
  match value with
  | .null => .ok []
  | .mapping pairs => if pairs.isEmpty then .ok [] else below owner condition ref
  | other => scope.malformed (.attributeNotMap key other.kind)

/-- The steps that give a field its entry and, unless it guards itself, its tag. -/
def fieldSteps (scope : Scope) (ref : FieldRef) (condition : Option String) (deferred : Bool) :
    List Step :=
  if deferred then [.entry ref]
  else [.entry ref, .tag ref (scope.tag condition), .catchAll (scope.tag condition)]

/-- Follows the segments of one key.  The owner is the type reached so far; where it is unknown, only
directives take effect. -/
def follow (resolver : Resolver) (scope : Scope) (parent : Option FieldRef) (key : String)
    (value : Yaml) (below : Below) :
    List String → Option String → Option String → Conditions →
      Except MappingError (Conditions × List Step)
  | [], _, _, conditions => .ok (conditions, [])
  | segment :: rest, owner, marker, conditions =>
    match Segment.classify segment with
    | .namedSecurity defined => do
      let expression ← scope.expression segment value
      follow resolver scope parent key value below rest owner marker
        (conditions.define defined expression)
    | .security => do
      let (conditions, steps) ← security scope parent value conditions
      let (conditions, more) ←
        follow resolver scope parent key value below rest owner marker conditions
      return (conditions, steps ++ more)
    | .maxDepth => do
      let depth ← match value.nat? with
        | some depth =>
          if depth < 0x100000000 then .ok depth
          else scope.malformed (.depthNotNatural segment value.kind)
        | none => scope.malformed (.depthNotNatural segment value.kind)
      let ref ← scope.enclosing parent segment
      let (conditions, more) ←
        follow resolver scope parent key value below rest owner marker conditions
      return (conditions, .maxDepth ref depth :: more)
    | .serializedName => do
      let name ← match value.text? with
        | some name => .ok name
        | none => scope.malformed (.nameNotText segment value.kind)
      let ref ← scope.enclosing parent segment
      let (conditions, more) ←
        follow resolver scope parent key value below rest owner marker conditions
      return (conditions, .serializedName ref name :: more)
    | .ignore => do
      let flag ← match value.bool? with
        | some flag => .ok flag
        | none => scope.malformed (.ignoreNotBool segment value.kind)
      let ref ← scope.enclosing parent segment
      let (conditions, more) ←
        follow resolver scope parent key value below rest owner marker conditions
      return (conditions, .ignore ref flag :: more)
    | .marker used =>
      follow resolver scope parent key value below rest owner (some used) conditions
    | .field name =>
      match owner with
      | none => .ok (conditions, [])
      | some type => do
        let condition ← conditions.ofMarker scope marker
        let ref : FieldRef := ⟨type, name⟩
        let steps := fieldSteps scope ref condition (rest.isEmpty && guardsItself value)
        let next := resolver.fieldType? type name
        if rest.isEmpty then
          let more ← descend scope key value below next condition ref
          return (conditions, steps ++ more)
        else
          match next with
          | some type => do
            let (conditions, more) ←
              follow resolver scope parent key value below rest (some type) marker conditions
            return (conditions, steps ++ more)
          | none => return (conditions, steps)

/-- The steps of one key, and the conditions in force after it; a hoisted key has none. -/
def key (resolver : Resolver) (scope : Scope) (owner : Option String) (parent : Option FieldRef)
    (conditions : Conditions) (key value : Yaml) (below : Below) :
    Except MappingError (Conditions × List Step) := do
  let name ← scope.keyName key
  if Segment.isHoisted name then return (conditions, [])
  else follow resolver scope parent name value below (Segment.path name) owner none conditions

mutual

def inside (resolver : Resolver) (scope : Scope) : Yaml → Below
  | .mapping pairs, owner, condition, ref => do
    let (conditions, steps) ← hoisted scope (some ref) condition pairs
    let more ← keys resolver scope pairs owner (some ref) conditions
    return steps ++ more
  | .null, _, _, _ => .ok []
  | .bool _, _, _, _ => .ok []
  | .number _, _, _, _ => .ok []
  | .string _, _, _, _ => .ok []
  | .sequence _, _, _, _ => .ok []
  | .tagged _ _, _, _, _ => .ok []

def keys (resolver : Resolver) (scope : Scope) :
    Tree → Option String → Option FieldRef → Conditions → Except MappingError (List Step)
  | [], _, _, _ => .ok []
  | (name, value) :: rest, owner, parent, conditions => do
    let (conditions, steps) ←
      key resolver scope owner parent conditions name value (inside resolver scope value)
    let more ← keys resolver scope rest owner parent conditions
    return steps ++ more

end

def level (resolver : Resolver) (scope : Scope) (owner : Option String)
    (parent : Option FieldRef) (inherited : Option String) (tree : Tree) :
    Except MappingError (List Step) := do
  let (conditions, steps) ← hoisted scope parent inherited tree
  let more ← keys resolver scope tree owner parent conditions
  return steps ++ more

/-- The steps of the trees of a group, each of which holds at least one key. -/
def trees (resolver : Resolver) (scope : Scope) : List Tree → Except MappingError (List Step)
  | [] => .ok []
  | tree :: rest => do
    if tree.isEmpty then .error (.emptyGroup scope.root scope.group "mapping definition")
    let steps ← level resolver scope (some scope.root) none none tree
    let more ← trees resolver scope rest
    return steps ++ more

def groups (resolver : Resolver) (root : String) :
    List (String × List Tree) → Except MappingError (List Step)
  | [] => .ok []
  | (group, declared) :: rest => do
    let steps ← trees resolver ⟨root, group⟩ declared
    let more ← groups resolver root rest
    return steps ++ more

/-- The steps of a definition's types, each of which gets a table first. -/
def types (resolver : Resolver) : List (String × Groups) → Except MappingError (List Step)
  | [] => .ok []
  | (root, declared) :: rest => do
    let steps ← groups resolver root declared.entries
    let more ← types resolver rest
    return .table root :: steps ++ more

end Walk

def Definition.steps (definition : Definition) (resolver : Resolver) :
    Except MappingError (List Step) :=
  Walk.types resolver definition.types.entries

/-- Tables by type, in the order in which they were begun. -/
abbrev Tables := Dict Table

namespace Tables

def change (tables : Tables) (at_ : FieldRef) (change : EntryChange) : Tables :=
  tables.alter at_.owner fun table? =>
    (table?.getD (.empty at_.owner)).change at_.field change

def apply (tables : Tables) : Step → Tables
  | .table type => tables.alter type fun table? => table?.getD (.empty type)
  | .entry ref => tables.change ref .touch
  | .tag ref tag => tables.change ref (.tag tag.text)
  | .catchAll tag =>
    tables.alter tag.type fun table? => (table?.getD (.empty tag.type)).addCatchAll tag.text
  | .maxDepth ref depth => tables.change ref (.maxDepth depth)
  | .serializedName ref name => tables.change ref (.serializedName name)
  | .ignore ref flag => tables.change ref (.ignore flag)

def ofSteps (steps : List Step) : Tables :=
  steps.foldl apply .empty

end Tables

def Definition.tables (definition : Definition) (resolver : Resolver) :
    Except MappingError Tables :=
  (definition.steps resolver).map Tables.ofSteps

end Visibility
