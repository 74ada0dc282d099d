import Visibility.Decoding
import Visibility.Files.Tree
import Visibility.Operation
import Visibility.Resolver
import Visibility.Yaml.Source

set_option autoImplicit false
set_option relaxedAutoImplicit false

/-!
The configuration: where mappings are found, and how types and tags are read.
-/

namespace Visibility

structure Config where
  /-- The mappings of the project are in `config` below it. -/
  projectDir : Path := "."
  /-- Modules, whose mappings come before those of the project. -/
  moduleDirs : List Path := []
  /-- Directory of the mapping files below `config`. -/
  mappingSubdir : String := "serializer-groups"
  /-- What stands between the parts of a type's name. -/
  separator : String := "\\"
  /-- Declared types that never name the type of an element. -/
  collections : List String := ["Collection", "ArrayCollection",
    "Doctrine\\Common\\Collections\\Collection", "Doctrine\\Common\\Collections\\ArrayCollection",
    "array", "iterable", "Vec"]
  policy : DirectionPolicy := .asymmetric
  schemaFile : Option Path := none
  resourcesFile : Option Path := none

inductive FileError where
  | unreadable (path : Path)
  | notParsed (path : Path)
deriving DecidableEq, Repr

def FileError.message : FileError → String
  | unreadable path => "Failed to read " ++ path
  | notParsed path => "Failed to parse " ++ path

def FileTree.load {α : Type} (tree : FileTree) (read : Yaml.Site → Decoding α) (path : Path) :
    Except FileError α :=
  match tree.readText? path with
  | none => .error (.unreadable path)
  | some text =>
    match Yaml.decode? read text with
    | none => .error (.notParsed path)
    | some value => .ok value

namespace Config

def fieldNames : List String :=
  ["project_dir", "module_dirs", "mapping_subdir", "namespace_separator", "collection_types",
    "direction_policy", "schema_file", "resources_file"]

/-- Reads a configuration; a missing field takes its default. -/
def decode {σ : Type} [Source σ] (place : σ) : Decoding Config := do
  let fields ← Source.fields fieldNames place
  let default : Config := {}
  return {
    projectDir := ← Decoding.fieldD fields "project_dir" default.projectDir Source.text
    moduleDirs :=
      ← Decoding.fieldD fields "module_dirs" default.moduleDirs (Source.list Source.text)
    mappingSubdir := ← Decoding.fieldD fields "mapping_subdir" default.mappingSubdir Source.text
    separator := ← Decoding.fieldD fields "namespace_separator" default.separator Source.text
    collections :=
      ← Decoding.fieldD fields "collection_types" default.collections (Source.list Source.text)
    policy :=
      ← Decoding.fieldD fields "direction_policy" default.policy
        (Source.choice DirectionPolicy.ofName?)
    schemaFile := ← Decoding.fieldD fields "schema_file" none (Source.optional Source.text)
    resourcesFile := ← Decoding.fieldD fields "resources_file" none (Source.optional Source.text) }

/-- Takes the relative paths of a configuration below a directory. -/
def rebase (config : Config) (base : Path) : Config :=
  { config with
    projectDir := Path.rebase base config.projectDir
    moduleDirs := config.moduleDirs.map (Path.rebase base)
    schemaFile := config.schemaFile.map (Path.rebase base)
    resourcesFile := config.resourcesFile.map (Path.rebase base) }

def load (tree : FileTree) (path : Path) : Except FileError Config := do
  let config ← tree.load decode path
  return config.rebase (Path.parent path)

/-- The configuration that the environment names: a file, or the defaults with a directory of the
project. -/
def ofEnvironment (tree : FileTree) (file projectDir : Option Path) : Except FileError Config :=
  match file with
  | some path => load tree path
  | none =>
    let default : Config := {}
    .ok { default with projectDir := projectDir.getD default.projectDir }

/-- The directory of a module's mappings: below `Resources/config`, where there is such a directory,
else below `config`. -/
def moduleMappingDir (config : Config) (tree : FileTree) (module : Path) : Path :=
  let resources := Path.join (Path.join module "Resources") "config"
  let parent := if tree.isDirectory resources then resources else Path.join module "config"
  Path.join parent config.mappingSubdir

/-- Directories of mapping files: those of the modules in order, then that of the project. -/
def mappingDirs (config : Config) (tree : FileTree) : List Path :=
  config.moduleDirs.map (config.moduleMappingDir tree) ++
    [Path.join (Path.join config.projectDir "config") config.mappingSubdir]

def resolver (config : Config) (introspector : Introspector) : Resolver :=
  ⟨introspector, config.separator, config.collections⟩

end Config

end Visibility
