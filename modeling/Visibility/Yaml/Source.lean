import Visibility.Decoding
import Visibility.Yaml.Document
import Visibility.Yaml.Scalar

set_option autoImplicit false
set_option relaxedAutoImplicit false

/-!
The values of YAML documents.

Collections may be nested 128 deep, aliases followed.  Read without a type, a document gives a YAML
value.  Read with a type, a text is any scalar as it is written, and an empty scalar is an empty list
or map.
-/

namespace Visibility.Yaml

/-- A place in a document: a node, or none in an empty document, and how deep it may still nest. -/
structure Site where
  anchors : List (Nat × Node Nat)
  depth : Nat
  node : Option (Node Nat)

namespace Site

def ofDocument : Option Document → Site
  | some document => ⟨document.anchors, 128, some document.root⟩
  | none => ⟨[], 128, none⟩

private def lift {α : Type} (result : Option α) : Decoding α :=
  StateT.lift result

/-- Counts down the references that may be followed. -/
def spendJump : Decoding Unit := do
  let left ← get
  match left with
  | 0 => failure
  | left + 1 => set left

def follow (anchors : List (Nat × Node Nat)) (node : Node Nat) : Decoding (Node Nat) :=
  match node with
  | .reference anchor => do
    spendJump
    lift (anchors.lookup anchor)
  | node => pure node

def followed (site : Site) : Decoding Site := do
  match site.node with
  | some node => return { site with node := some (← follow site.anchors node) }
  | none => return site

def inner? (site : Site) (node : Node Nat) : Option Site :=
  match site.depth with
  | 0 => none
  | depth + 1 => some { site with depth := depth, node := some node }

end Site

/-- A name without a `!` before it; the name `!` stays. -/
private def dropMark : List Char → List Char
  | '!' :: c :: rest => c :: rest
  | name => name

/-- The name of a tag that is the document's own: one that can be read and begins with `!`. -/
def ownName? (tag : Option TagText) : Option String := do
  let tag ← tag
  if tag.isReadable && tag.text.startsWith "!" then some (String.ofList (dropMark tag.text.toList))
  else none

/-- A tag of the document's own as it is shown with a value: a second `!` of it is not. -/
def ownTag? (tag : Option TagText) : Option String :=
  (ownName? tag).map fun name => String.ofList ('!' :: dropMark name.toList)

def withTag (tag : Option TagText) (value : Yaml) : Yaml :=
  match ownTag? tag with
  | some tag => tagged tag value
  | none => value

def scalarValue? (tag : Option TagText) (plain : Bool) (text : String) : Option Yaml :=
  let kind := (tag.map TagText.text).filter fun tag => !tag.startsWith "!"
  (Scalar.value? kind plain text).map (withTag tag)

def addPair? (pairs : Pairs) (key value : Yaml) : Option Pairs :=
  if pairs.any fun pair => pair.1.same key then none else some (pairs ++ [(key, value)])

def valueOf (anchors : List (Nat × Node Nat)) (depth : Nat) (node : Node Nat) : Decoding Yaml := do
  match ← Site.follow anchors node with
  | .reference _ => failure
  | .scalar props plain text => StateT.lift (scalarValue? props.tag plain text)
  | .sequence props items =>
    match depth with
    | 0 => failure
    | depth + 1 => return withTag props.tag (.sequence (← items.mapM (valueOf anchors depth)))
  | .mapping props pairs =>
    match depth with
    | 0 => failure
    | depth + 1 => do
      let pairs ← pairs.foldlM (fun (done : Pairs) (key, value) => do
        let key ← valueOf anchors depth key
        let value ← valueOf anchors depth value
        StateT.lift (addPair? done key value)) []
      return withTag props.tag (.mapping pairs)

def read? (text : String) : Option Yaml := do
  match ← Document.ofText? text with
  | none => some null
  | some document => (valueOf document.anchors 128 document.root).run? document.jumpLimit

private def scalarText? : Node Nat → Option String
  | .scalar _ _ text => some text
  | _ => none

/-- A value of JSON for a scalar; floats that JSON lacks become `null`. -/
private def jsonLeaf? : Yaml → Option Json
  | null => some .null
  | bool flag => some (.bool flag)
  | number (.int n) => some (.int n)
  | number (.float value) => some (if value.isFinite then .number (.float value) else .null)
  | string text => some (.string text)
  | _ => none

inductive KeyReading where
  /-- As they are written. -/
  | asWritten
  /-- Only keys whose value is a string. -/
  | stringsOnly
deriving DecidableEq, Repr

private def jsonKey? (keys : KeyReading) : Node Nat → Option String
  | .scalar props plain text =>
    match keys with
    | .asWritten => some text
    | .stringsOnly =>
      match scalarValue? props.tag plain text with
      | some (.string text) => some text
      | _ => none
  | _ => none

/-- The JSON value of a node; a tag of the document's own is refused. -/
def jsonOf (anchors : List (Nat × Node Nat)) (keys : KeyReading) (depth : Nat) (node : Node Nat) :
    Decoding Json := do
  let refuseOwn (props : Props Nat) : Decoding Unit :=
    if (ownTag? props.tag).isSome then failure else pure ()
  match ← Site.follow anchors node with
  | .reference _ => failure
  | .scalar props plain text => StateT.lift ((scalarValue? props.tag plain text).bind jsonLeaf?)
  | .sequence props items =>
    refuseOwn props
    match depth with
    | 0 => failure
    | depth + 1 => return .array (← items.mapM (jsonOf anchors keys depth))
  | .mapping props pairs =>
    refuseOwn props
    match depth with
    | 0 => failure
    | depth + 1 => do
      let fields ← pairs.mapM fun (key, value) => do
        let name ← StateT.lift (jsonKey? keys (← Site.follow anchors key))
        return (name, ← jsonOf anchors keys depth value)
      return .object (Assoc.ofList fields)

namespace Site

private def isEmptyScalar : Node Nat → Bool
  | .scalar _ plain text => plain && text.isEmpty
  | _ => false

/-- The pairs of a map, keys as they are written; an empty scalar has none. -/
private def pairs (site : Site) : Decoding (List (String × Site)) := do
  let site ← site.followed
  match site.node with
  | none => return []
  | some (.mapping _ pairs) =>
    if site.depth = 0 then failure
    pairs.mapM fun (key, value) => do
      let key ← lift (scalarText? (← follow site.anchors key))
      return (key, ← lift (site.inner? value))
  | some node => if isEmptyScalar node then return [] else failure

private def refuseRepeated (fields : List (String × Site)) : Decoding Unit :=
  if (fields.map Prod.fst).Nodup then pure () else failure

private def isAbsent? : Node Nat → Option Bool
  | .scalar props plain text =>
    if !plain then some false
    else
      match props.tag with
      | some tag =>
        if tag.text ≠ Scalar.nullTag then some false
        else if Scalar.isNull text then some true else none
      | none => some (text.isEmpty || Scalar.isNull text)
  | _ => some false

private def textOf (site : Site) : Decoding String := do
  let site ← site.followed
  lift (site.node.bind scalarText?)

private def jsonWith (keys : KeyReading) (site : Site) : Decoding Json :=
  match site.node with
  | some node => jsonOf site.anchors keys site.depth node
  | none => pure .null

instance : Source Site where
  text := textOf
  optional read site := do
    let site ← site.followed
    match site.node with
    | none => return none
    | some node => if ← lift (isAbsent? node) then return none else some <$> read site
  list read site := do
    let site ← site.followed
    match site.node with
    | none => return []
    | some (.sequence _ items) =>
      if site.depth = 0 then failure
      items.mapM fun item => do read (← lift (site.inner? item))
    | some node => if isEmptyScalar node then return [] else failure
  entries read site := do
    (← site.pairs).mapM fun (name, inner) => do return (name, ← read inner)
  fields names site := do
    let known := (← site.pairs).filter fun field => names.contains field.1
    refuseRepeated known
    return known
  openFields names site := do
    let (known, others) := (← site.pairs).partition fun field => names.contains field.1
    refuseRepeated known
    let others ← others.mapM fun (name, inner) => do return (name, ← jsonWith .stringsOnly inner)
    return (known, Assoc.ofList others)
  choice ofName? site := do
    let site ← site.followed
    match site.node with
    | some (.scalar props plain text) =>
      match ownName? props.tag with
      | some name =>
        if plain && (text.isEmpty || Scalar.isNull text) then lift (ofName? name) else failure
      | none => lift (ofName? text)
    | _ => failure
  json := jsonWith .asWritten

end Site

def decode? {α : Type} (read : Site → Decoding α) (text : String) : Option α := do
  let document ← Document.ofText? text
  (read (Site.ofDocument document)).run? ((document.map Document.jumpLimit).getD 0)

end Visibility.Yaml
