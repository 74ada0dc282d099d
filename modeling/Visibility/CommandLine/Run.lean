import Visibility.CommandLine.Arguments
import Visibility.CommandLine.Report
import Visibility.Json.Reader
import Visibility.Mapping.Loading
import Visibility.Schema.Decoding
import Visibility.Serialization.Builder

set_option autoImplicit false
set_option relaxedAutoImplicit false

/-!
What a command prints, and the code it ends with.
-/

namespace Visibility.CommandLine

inductive Failure where
  | file (cause : FileError)
  | mappings (cause : MappingError)
  | noTable (type : String)
  | criteria (cause : CriteriaError)

/-- The causes of a failure from the outermost to the innermost, as they are told. -/
def Failure.message : Failure → String
  | file cause => cause.message
  | mappings cause => "Failed to load mappings: " ++ cause.message
  | noTable type => "no attribute table for \"" ++ type ++ "\""
  | criteria cause => (ContextError.criteria cause).message ++ ": " ++ cause.source.message

structure Outcome where
  code : Nat
  stdout : String := ""
  stderr : String := ""
deriving DecidableEq, Repr

/-- What a command can see: the files, and the variables that name a configuration file and the
directory of the project. -/
structure Surroundings where
  files : FileTree
  configFile : Option String := none
  projectDir : Option String := none

def programName : String := "fieldgate"

def versionText : String := programName ++ " 0.1.0\n"

def helpText : String :=
  "Inspect serializer group mappings and evaluate active groups\n\n" ++
  "Usage: " ++ programName ++ " [OPTIONS] <COMMAND>\n\n" ++
  "Commands:\n" ++
  "  tables  Print resolved attribute tables\n" ++
  "  groups  Compute the active groups for one request\n" ++
  "  help    Print this message\n\n" ++
  "Options:\n" ++
  "  -c, --config <CONFIG>  Configuration file\n" ++
  "  -o, --format <FORMAT>  Output format: json or text\n" ++
  "  -h, --help             Print help\n" ++
  "  -V, --version          Print version\n"

/-- The configuration file that a run uses: the one it was given, else that of the environment. -/
def loadConfig (surroundings : Surroundings) (path : Option Path) : Except FileError Config :=
  Config.ofEnvironment surroundings.files path surroundings.projectDir

/-- The schema that a configuration names; without one no type is known. -/
def loadSchema (files : FileTree) (config : Config) : Except FileError Schema :=
  match config.schemaFile with
  | some path => files.load Schema.decode path
  | none => .ok .empty

def loadRegistry (surroundings : Surroundings) (path : Option Path) :
    Except Failure (Config × Registry) := do
  let config ← (loadConfig surroundings path).mapError .file
  let schema ← (loadSchema surroundings.files config).mapError .file
  let resolver := config.resolver schema.introspector
  let registry ← (Registry.load surroundings.files config resolver none).mapError .mappings
  return (config, registry)

private def tableOf (registry : Registry) (type : String) : Except Failure Table :=
  match registry.table? type with
  | some table => .ok table
  | none => .error (.noTable type)

/-- The caller that a list of roles stands for; without roles it is nobody. -/
def callerOf (roles : List String) : Caller :=
  if roles.isEmpty then RoleHolder.anonymous.toCaller
  else
    let holder : RoleHolder := ⟨some (.object [("roles", .strings roles)]), roles⟩
    holder.toCaller

def activeGroups (policy : DirectionPolicy) (table : Table) (command : GroupsCommand)
    (instance_ : Option Json) : Except CriteriaError (List String) :=
  let query : GroupQuery :=
    { operation := command.operation
      direction := command.direction
      policy
      instance_
      caller := callerOf command.roles }
  (query.active evaluate table).result

private def readObject (files : FileTree) (path : Path) : Except Failure Json :=
  match files.readText? path with
  | none => .error (.file (.unreadable path))
  | some text =>
    match Json.read? text with
    | none => .error (.file (.notParsed path))
    | some value => .ok value

private def runTables (registry : Registry) (format : OutputFormat) (type : Option String) :
    Except Failure String := do
  let tables ← match type with
    | some type => (tableOf registry type).map fun table => [table]
    | none => .ok registry.tables.values
  match format with
  | .json => return (Json.array (tables.map Table.toJson)).pretty ++ "\n"
  | .text => return String.join (tables.map tableText)

private def runGroups (files : FileTree) (config : Config) (registry : Registry)
    (format : OutputFormat) (command : GroupsCommand) : Except Failure String := do
  let table ← tableOf registry command.type
  let instance_ ← match command.object with
    | some path => (readObject files path).map some
    | none => .ok none
  let groups ← (activeGroups config.policy table command instance_).mapError .criteria
  let report : GroupsReport := ⟨table, command.operation, command.direction, groups⟩
  match format with
  | .json => return report.toJson.pretty ++ "\n"
  | .text => return report.text

def output (surroundings : Surroundings) (invocation : Invocation) : Except Failure String := do
  let (config, registry) ← loadRegistry surroundings invocation.config
  match invocation.command with
  | .tables type => runTables registry invocation.format type
  | .groups command => runGroups surroundings.files config registry invocation.format command

def run (surroundings : Surroundings) (args : List String) : Outcome :=
  match parse args surroundings.configFile with
  | .error .wrongUsage => { code := 2 }
  | .error .help => { code := 0, stdout := helpText }
  | .error .version => { code := 0, stdout := versionText }
  | .ok invocation =>
    match output surroundings invocation with
    | .ok text => { code := 0, stdout := text }
    | .error failure =>
      match invocation.format with
      | .json =>
        { code := 1
          stdout := (Json.object [("error", .string failure.message)]).compact ++ "\n" }
      | .text => { code := 1, stderr := "error: " ++ failure.message ++ "\n" }

end Visibility.CommandLine
