import Visibility.Ordered.Dict
import Visibility.Yaml.Lexer
import Visibility.Yaml.Node

set_option autoImplicit false
set_option relaxedAutoImplicit false

/-!
YAML documents with their aliases resolved.

An anchor gets the number of names that were known before it, and an alias the number that its name
has where it stands.  A name that is used again gets a new number, which a later name may share; a
number stands for the last node that was given it.
-/

namespace Visibility.Yaml

namespace Node

abbrev Names := List (String × Nat)

private def nameProps (names : Names) (props : Props String) : Props Nat × Names :=
  match props.anchor with
  | some name => (⟨some names.length, props.tag⟩, Assoc.put name names.length names)
  | none => (⟨none, props.tag⟩, names)

mutual

/-- Replaces names by numbers, in document order; an unknown name is refused. -/
def resolve? : Node String → Names → Option (Node Nat × Names)
  | reference name, names => do
    let number ← names.lookup name
    return (reference number, names)
  | scalar props plain text, names =>
    let (props, names) := nameProps names props
    some (scalar props plain text, names)
  | sequence props items, names => do
    let (props, names) := nameProps names props
    let (items, names) ← resolveItems? items names
    return (sequence props items, names)
  | mapping props pairs, names => do
    let (props, names) := nameProps names props
    let (pairs, names) ← resolvePairs? pairs names
    return (mapping props pairs, names)

def resolveItems? : List (Node String) → Names → Option (List (Node Nat) × Names)
  | [], names => some ([], names)
  | item :: rest, names => do
    let (item, names) ← resolve? item names
    let (rest, names) ← resolveItems? rest names
    return (item :: rest, names)

def resolvePairs? : List (Node String × Node String) → Names →
    Option (List (Node Nat × Node Nat) × Names)
  | [], names => some ([], names)
  | (key, value) :: rest, names => do
    let (key, names) ← resolve? key names
    let (value, names) ← resolve? value names
    let (rest, names) ← resolvePairs? rest names
    return ((key, value) :: rest, names)

end

variable {ρ : Type}

private def ownAnchor (props : Props ρ) (node : Node ρ) : List (ρ × Node ρ) :=
  match props.anchor with
  | some anchor => [(anchor, node)]
  | none => []

mutual

def anchored : Node ρ → List (ρ × Node ρ)
  | reference _ => []
  | scalar props plain text => ownAnchor props (scalar props plain text)
  | sequence props items => ownAnchor props (sequence props items) ++ anchoredItems items
  | mapping props pairs => ownAnchor props (mapping props pairs) ++ anchoredPairs pairs

def anchoredItems : List (Node ρ) → List (ρ × Node ρ)
  | [] => []
  | item :: rest => anchored item ++ anchoredItems rest

def anchoredPairs : List (Node ρ × Node ρ) → List (ρ × Node ρ)
  | [] => []
  | (key, value) :: rest => anchored key ++ anchored value ++ anchoredPairs rest

end

mutual

/-- The number of scalars and aliases, and of starts and ends of collections. -/
def weight : Node ρ → Nat
  | reference _ => 1
  | scalar _ _ _ => 1
  | sequence _ items => 2 + weightItems items
  | mapping _ pairs => 2 + weightPairs pairs

def weightItems : List (Node ρ) → Nat
  | [] => 0
  | item :: rest => weight item + weightItems rest

def weightPairs : List (Node ρ × Node ρ) → Nat
  | [] => 0
  | (key, value) :: rest => weight key + weight value + weightPairs rest

end

end Node

structure Document where
  root : Node Nat
  /-- Nodes by the number of their anchor, the last one first. -/
  anchors : List (Nat × Node Nat)
  /-- How many aliases may be followed in reading the document. -/
  jumpLimit : Nat

namespace Document

/-- The document of a text.  `some none` is a text without a document, `none` one that breaks a
rule. -/
def ofText? (text : String) : Option (Option Document) := do
  let tokens ← Token.scan? text
  match ← Node.ofTokens? tokens with
  | none => some none
  | some node =>
    let (root, _) ← node.resolve? []
    some (some ⟨root, root.anchored.reverse, 100 * root.weight⟩)

end Document

end Visibility.Yaml
