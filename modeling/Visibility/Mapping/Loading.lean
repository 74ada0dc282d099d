import Visibility.Config
import Visibility.Files.Discovery
import Visibility.Mapping.Registry
import Visibility.Yaml.Source

set_option autoImplicit false
set_option relaxedAutoImplicit false

/-!
From mapping files to a definition and to a registry.

The files of a directory are taken in the order of their paths, the directories in the order of the
configuration, and all their definitions are merged.
-/

namespace Visibility

/-- The definition that a text declares; `origin` names the text in messages. -/
def Definition.ofText (origin text : String) : Except MappingError Definition :=
  match Yaml.read? text with
  | none => .error (.notYaml origin)
  | some value => Definition.ofYaml origin value

/-- The local path of a mapping location: a path, or an address that begins with `file://`. -/
def localPath (location : String) : Except MappingError Path :=
  match Text.cutLead? "file://" location with
  | some path => .ok path
  | none =>
    if Text.hasPart "://".toList location.toList then .error (.notLocalFile location)
    else .ok location

abbrev MappingReader := Path → Except MappingError Definition

structure LoadedMappings where
  definition : Definition := .empty
  files : List Path := []

namespace FileTree

def loadYaml (tree : FileTree) (location : String) : Except MappingError Definition := do
  let path ← localPath location
  match tree.readText? path with
  | none => .error (.unreadable path)
  | some text => Definition.ofText path text

/-- The reader of a file; files in XML are passed over where nobody reads them. -/
def reader? (tree : FileTree) (xml : Option MappingReader) (path : Path) : Option MappingReader :=
  match MappingFormat.ofPath? path with
  | some .yaml => some tree.loadYaml
  | some .xml => xml
  | none => none

/-- Merges files in order; the first that fails ends it. -/
def loadFiles (tree : FileTree) (xml : Option MappingReader) :
    List Path → LoadedMappings → Except MappingError LoadedMappings
  | [], loaded => .ok loaded
  | path :: rest, loaded =>
    match tree.reader? xml path with
    | none => tree.loadFiles xml rest loaded
    | some read => do
      let definition ← read path
      tree.loadFiles xml rest
        ⟨loaded.definition.merge definition, loaded.files ++ [path]⟩

def loadMappings (tree : FileTree) (directories : List Path) (xml : Option MappingReader) :
    Except MappingError LoadedMappings :=
  tree.loadFiles xml (directories.flatMap tree.discover) {}

end FileTree

def Registry.load (tree : FileTree) (config : Config) (resolver : Resolver)
    (xml : Option MappingReader) : Except MappingError Registry := do
  let loaded ← tree.loadMappings (config.mappingDirs tree) xml
  let registry ← Registry.ofDefinition loaded.definition resolver
  return { registry with files := loaded.files }

end Visibility
