import Visibility.Yaml.Token

set_option autoImplicit false
set_option relaxedAutoImplicit false

/-!
The nodes of a YAML document, and their grammar over tokens.

An alias refers to an anchor by a value of type `ρ`: by name as it is written, or by a number once
the names are resolved.
-/

namespace Visibility.Yaml

structure Props (ρ : Type) where
  anchor : Option ρ := none
  tag : Option TagText := none

inductive Node (ρ : Type) where
  | reference (anchor : ρ)
  | scalar (props : Props ρ) (plain : Bool) (text : String)
  | sequence (props : Props ρ) (items : List (Node ρ))
  | mapping (props : Props ρ) (pairs : List (Node ρ × Node ρ))

namespace Node

def empty : Node String := .scalar {} true ""

/-- The beginnings that handles of tags stand for. -/
abbrev Handles := List (String × TagText)

def standardHandles : Handles :=
  [("!", ⟨"!", true⟩), ("!!", ⟨"tag:yaml.org,2002:", true⟩)]

def tag? (handles : Handles) (handle : String) (suffix : TagText) : Option TagText :=
  if handle.isEmpty then some suffix
  else (handles.lookup handle).map fun lead => lead.append suffix

private def props? (handles : Handles) : List Token → Option (Props String × List Token)
  | .anchor name :: .tag handle suffix :: rest
  | .tag handle suffix :: .anchor name :: rest => do
    let tag ← tag? handles handle suffix
    return (⟨some name, some tag⟩, rest)
  | .anchor name :: rest => some (⟨some name, none⟩, rest)
  | .tag handle suffix :: rest => do
    let tag ← tag? handles handle suffix
    return (⟨none, some tag⟩, rest)
  | rest => some ({}, rest)

/-- A scalar; the tag `!` says no more than that it is one. -/
private def ofScalar (props : Props String) (plain : Bool) (text : String) : Node String :=
  if props.tag = some ⟨"!", true⟩ then scalar { props with tag := none } plain text
  else scalar props plain text

/-- Where a node stands: inside brackets, where block collections are not allowed, in a block, or in
a block mapping, where a sequence need not be indented. -/
inductive Position where
  | flow
  | block
  | blockPair
deriving DecidableEq, Repr

/-- Tokens before which a node of a block mapping is left out. -/
private def endsPairNode : Token → Bool
  | .key | .value | .blockEnd => true
  | _ => false

private def endsItem : Token → Bool
  | .item | .blockEnd => true
  | _ => false

private def endsLooseItem : Token → Bool
  | .item | .key | .value | .blockEnd => true
  | _ => false

private def endsFlowItem : Token → Bool
  | .comma | .flowSequenceEnd => true
  | _ => false

private def endsFlowPairNode : Token → Bool
  | .value | .comma | .flowMappingEnd => true
  | _ => false

private def endsFlowPairValue : Token → Bool
  | .comma | .flowMappingEnd => true
  | _ => false

private def sees (tokens : List Token) (p : Token → Bool) : Bool :=
  match tokens with
  | token :: _ => p token
  | [] => false

mutual

private def node? (handles : Handles) :
    Nat → Position → List Token → Option (Node String × List Token)
  | 0, _, _ => none
  | _ + 1, _, .reference name :: rest => some (.reference name, rest)
  | fuel + 1, position, tokens => do
    let (props, rest) ← props? handles tokens
    let inBlock := position ≠ .flow
    match rest with
    | .item :: _ =>
      if position = .blockPair then
        let (items, rest) ← looseItems? handles fuel [] rest
        return (.sequence props items, rest)
      else missing props rest
    | .scalar text plain :: rest => return (ofScalar props plain text, rest)
    | .flowSequence :: rest =>
      let (items, rest) ← flowItems? handles fuel [] rest
      return (.sequence props items, rest)
    | .flowMapping :: rest =>
      let (pairs, rest) ← flowPairs? handles fuel [] rest
      return (.mapping props pairs, rest)
    | .blockSequence :: more =>
      if inBlock then
        let (items, rest) ← items? handles fuel [] more
        return (.sequence props items, rest)
      else missing props rest
    | .blockMapping :: more =>
      if inBlock then
        let (pairs, rest) ← pairs? handles fuel [] more
        return (.mapping props pairs, rest)
      else missing props rest
    | _ => missing props rest
where
  /-- An empty scalar, if something is said about it. -/
  missing (props : Props String) (rest : List Token) : Option (Node String × List Token) :=
    if props.anchor.isSome || props.tag.isSome then some (.scalar props true "", rest) else none

private def nodeOrEmpty? (handles : Handles) :
    Nat → Position → (Token → Bool) → List Token → Option (Node String × List Token)
  | 0, _, _, _ => none
  | fuel + 1, position, ends, tokens =>
    if sees tokens ends then some (empty, tokens) else node? handles fuel position tokens

/-- The value after a key: a node if its mark is there, else an empty scalar. -/
private def valueOrEmpty? (handles : Handles) :
    Nat → Position → (Token → Bool) → List Token → Option (Node String × List Token)
  | 0, _, _, _ => none
  | fuel + 1, position, ends, tokens =>
    match tokens with
    | .value :: rest => nodeOrEmpty? handles fuel position ends rest
    | _ => some (empty, tokens)

private def items? (handles : Handles) :
    Nat → List (Node String) → List Token → Option (List (Node String) × List Token)
  | 0, _, _ => none
  | fuel + 1, done, .item :: rest => do
    let (item, rest) ← nodeOrEmpty? handles fuel .block endsItem rest
    items? handles fuel (item :: done) rest
  | _ + 1, done, .blockEnd :: rest => some (done.reverse, rest)
  | _ + 1, _, _ => none

/-- Items of a sequence that is not indented below its key. -/
private def looseItems? (handles : Handles) :
    Nat → List (Node String) → List Token → Option (List (Node String) × List Token)
  | 0, _, _ => none
  | fuel + 1, done, .item :: rest => do
    let (item, rest) ← nodeOrEmpty? handles fuel .block endsLooseItem rest
    looseItems? handles fuel (item :: done) rest
  | _ + 1, done, rest => some (done.reverse, rest)

private def pairs? (handles : Handles) :
    Nat → List (Node String × Node String) → List Token →
      Option (List (Node String × Node String) × List Token)
  | 0, _, _ => none
  | fuel + 1, done, .key :: rest => do
    let (key, rest) ← nodeOrEmpty? handles fuel .blockPair endsPairNode rest
    let (value, rest) ← valueOrEmpty? handles fuel .blockPair endsPairNode rest
    pairs? handles fuel ((key, value) :: done) rest
  | _ + 1, done, .blockEnd :: rest => some (done.reverse, rest)
  | _ + 1, _, _ => none

private def flowItems? (handles : Handles) :
    Nat → List (Node String) → List Token → Option (List (Node String) × List Token)
  | 0, _, _ => none
  | _ + 1, done, .flowSequenceEnd :: rest => some (done.reverse, rest)
  | fuel + 1, done, tokens => do
    let (item, rest) ← flowItem? handles fuel tokens
    match rest with
    | .comma :: rest => flowItems? handles fuel (item :: done) rest
    | .flowSequenceEnd :: rest => some ((item :: done).reverse, rest)
    | _ => none

/-- An item in brackets: a node, or a key and its value, which make a mapping of one pair.  A key
that is left out takes the token in its place with it. -/
private def flowItem? (handles : Handles) :
    Nat → List Token → Option (Node String × List Token)
  | 0, _ => none
  | fuel + 1, .key :: rest => do
    let (key, rest) ←
      if sees rest fun token => endsFlowItem token || token = .value then
        some (empty, rest.tail)
      else node? handles fuel .flow rest
    let (value, rest) ← valueOrEmpty? handles fuel .flow endsFlowItem rest
    return (.mapping {} [(key, value)], rest)
  | fuel + 1, tokens => node? handles fuel .flow tokens

private def flowPairs? (handles : Handles) :
    Nat → List (Node String × Node String) → List Token →
      Option (List (Node String × Node String) × List Token)
  | 0, _, _ => none
  | _ + 1, done, .flowMappingEnd :: rest => some (done.reverse, rest)
  | fuel + 1, done, tokens => do
    let (pair, rest) ← flowPair? handles fuel tokens
    match rest with
    | .comma :: rest => flowPairs? handles fuel (pair :: done) rest
    | .flowMappingEnd :: rest => some ((pair :: done).reverse, rest)
    | _ => none

/-- A pair in brackets; a node that is no key has an empty value. -/
private def flowPair? (handles : Handles) :
    Nat → List Token → Option ((Node String × Node String) × List Token)
  | 0, _ => none
  | fuel + 1, .key :: rest => do
    let (key, rest) ← nodeOrEmpty? handles fuel .flow endsFlowPairNode rest
    let (value, rest) ← valueOrEmpty? handles fuel .flow endsFlowPairValue rest
    return ((key, value), rest)
  | fuel + 1, tokens => do
    let (key, rest) ← node? handles fuel .flow tokens
    return ((key, empty), rest)

end

/-- The handles that the directives of a document declare, each at most once, and the rest. -/
private def directives? : Option (Nat × Nat) → Handles → List Token →
    Option (Handles × List Token)
  | version, handles, .version major minor :: rest =>
    if version.isSome || major ≠ 1 || (minor ≠ 1 && minor ≠ 2) then none
    else directives? (some (major, minor)) handles rest
  | version, handles, .handle handle lead :: rest =>
    if (handles.lookup handle).isSome then none
    else directives? version (handles ++ [(handle, lead)]) rest
  | _, handles, rest => some (handles ++ standardHandles, rest)

private def endsDocument : Token → Bool
  | .version _ _ | .handle _ _ | .documentStart | .documentEnd => true
  | _ => false

private def document? (tokens : List Token) : Option (Node String × List Token) :=
  let fuel := 4 * tokens.length + 4
  let isExplicit := sees tokens fun
    | .version _ _ | .handle _ _ | .documentStart => true
    | _ => false
  if isExplicit then do
    let (handles, rest) ← directives? none [] tokens
    match rest with
    | .documentStart :: rest =>
      if rest.isEmpty || sees rest endsDocument then some (empty, rest)
      else node? handles fuel .block rest
    | _ => none
  else node? standardHandles fuel .block tokens

/-- The node that tokens make; nothing else may follow it but marks of the document's end.  Without
tokens there is no node. -/
def ofTokens? : List Token → Option (Option (Node String))
  | [] => some none
  | tokens => do
    let (node, rest) ← document? tokens
    if (rest.dropWhile (· = .documentEnd)).isEmpty then some (some node) else none

end Node

end Visibility.Yaml
