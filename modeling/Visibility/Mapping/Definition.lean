import Visibility.Mapping.Error
import Visibility.Yaml.Basic

set_option autoImplicit false
set_option relaxedAutoImplicit false

/-!
Mapping definitions: per type and operation group, the attribute trees that were declared, in the
order of declaration.

Later trees stand after earlier ones and replace none of them.
-/

namespace Visibility

/-- An attribute tree: the pairs of one level in document order. -/
abbrev Tree := Yaml.Pairs

abbrev Groups := Dict (List Tree)

structure Definition where
  types : Dict Groups

namespace Definition

def empty : Definition := ⟨.empty⟩

instance : Inhabited Definition := ⟨empty⟩

def typeNames (definition : Definition) : List String :=
  definition.types.keys

def groupCount (definition : Definition) : Nat :=
  definition.types.values.foldr (fun groups count => groups.size + count) 0

def isEmpty (definition : Definition) : Bool :=
  definition.types.isEmpty

def append (definition : Definition) (type group : String) (trees : List Tree) : Definition :=
  ⟨definition.types.alter type fun groups? =>
    (groups?.getD .empty).alter group fun trees? => trees?.getD [] ++ trees⟩

def push (definition : Definition) (type group : String) (tree : Tree) : Definition :=
  definition.append type group [tree]

def mergeGroups (groups : Groups) (later : Groups) : Groups :=
  later.entries.foldl
    (fun groups (group, trees) => groups.alter group fun trees? => trees?.getD [] ++ trees) groups

def merge (definition later : Definition) : Definition :=
  ⟨later.types.entries.foldl
    (fun types (type, groups) =>
      types.alter type fun groups? => mergeGroups (groups?.getD .empty) groups)
    definition.types⟩

/-- Bodies of a group that declare nothing. -/
def isBlank : Yaml → Bool
  | .null => true
  | .bool flag => !flag
  | .mapping pairs => pairs.isEmpty
  | .sequence items => items.isEmpty
  | .string text => text.isEmpty
  | _ => false

private def keyName (origin : String) : Yaml → Except MappingError String
  | .string text => .ok text
  | other => .error (.malformed origin (.keyNotText other.kind))

def groupTree (origin type group : String) (body : Yaml) : Except MappingError Tree :=
  match body with
  | .mapping (pair :: pairs) => .ok (pair :: pairs)
  | other =>
    if isBlank other then .error (.emptyGroup type group origin)
    else .error (.malformed origin (.groupNotMap group type other.kind))

def addGroups (origin type : String) :
    Definition → Yaml.Pairs → Except MappingError Definition
  | definition, [] => .ok definition
  | definition, (key, body) :: rest => do
    let group ← keyName origin key
    if group.toList.contains ':' then .error (.malformed origin (.colonInGroup group type))
    let tree ← groupTree origin type group body
    addGroups origin type (definition.push type group tree) rest

def addTypes (origin : String) : Definition → Yaml.Pairs → Except MappingError Definition
  | definition, [] => .ok definition
  | definition, (key, body) :: rest => do
    let type ← keyName origin key
    match body with
    | .mapping groups =>
      let definition ← addGroups origin type definition groups
      addTypes origin definition rest
    | other => .error (.malformed origin (.typeNotMap type other.kind))

/-- The definition that a document declares; `origin` names the document in messages. -/
def ofYaml (origin : String) : Yaml → Except MappingError Definition
  | .null => .ok empty
  | .mapping types => addTypes origin empty types
  | other => .error (.malformed origin (.documentNotMap other.kind))

end Definition

end Visibility
