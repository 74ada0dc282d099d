import Visibility.Files.Path
import Visibility.Operation

set_option autoImplicit false
set_option relaxedAutoImplicit false

/-!
The arguments of the command line.

Options with a value are written `--name value`, `--name=value`, `-n value` or `-nvalue`; those that
hold for all commands stand before the command or after it.
-/

namespace Visibility.CommandLine

inductive OutputFormat where
  | json
  | text
deriving DecidableEq, Repr

def OutputFormat.ofName? : String → Option OutputFormat
  | "json" => some json
  | "text" => some text
  | _ => none

structure GroupsCommand where
  type : String
  operation : OperationType
  direction : Direction := .normalization
  /-- A JSON file with the instance. -/
  object : Option Path := none
  roles : List String := []

inductive Command where
  | tables (type : Option String)
  | groups (command : GroupsCommand)

structure Invocation where
  config : Option Path
  format : OutputFormat
  command : Command

/-- Arguments that run no command. -/
inductive Stop where
  | wrongUsage
  | help
  | version
deriving DecidableEq, Repr

inductive OptionName where
  | config
  | format
  | type
  | operation
  | direction
  | object
  | role
deriving DecidableEq, Repr

namespace OptionName

def long : OptionName → String
  | config => "config"
  | format => "format"
  | type => "type"
  | operation => "operation"
  | direction => "direction"
  | object => "object"
  | role => "role"

def short? : OptionName → Option Char
  | config => some 'c'
  | format => some 'o'
  | type => some 't'
  | _ => none

def accepts : OptionName → String → Bool
  | config, value => !value.isEmpty
  | object, value => !value.isEmpty
  | format, value => (OutputFormat.ofName? value).isSome
  | operation, value => (OperationType.ofName value).isOk
  | direction, value => (Direction.ofName value).isOk
  | _, _ => true

def isRepeatable : OptionName → Bool
  | role => true
  | _ => false

end OptionName

abbrev Given := List (OptionName × String)

/-- What may be written at one place: before the command, or after it. -/
structure Level where
  options : List OptionName
  commands : List String
  hasVersion : Bool

namespace Level

def general : List OptionName := [.config, .format]

def top : Level := ⟨general, ["tables", "groups", "help"], true⟩

def ofTables : Level := ⟨.type :: general, [], false⟩

def ofGroups : Level :=
  ⟨[.type, .operation, .direction, .object, .role] ++ general, [], false⟩

end Level

def Given.all (given : Given) (name : OptionName) : List String :=
  given.filterMap fun (other, value) => if other = name then some value else none

def Given.first? (given : Given) (name : OptionName) : Option String :=
  (given.all name).head?

/-- Adds an option, unless its value is refused or it is repeated. -/
private def add (given : Given) (name : OptionName) (value : String) : Except Stop Given :=
  let isRepeated := !(given.all name).isEmpty && !name.isRepeatable
  if !name.accepts value || isRepeated then .error .wrongUsage else .ok (given ++ [(name, value)])

private def isValue (arg : String) : Bool :=
  arg = "-" || !Text.startsWith "-" arg

private inductive Reading where
  | stop (stop : Stop)
  | option (name : OptionName) (value : Option String)

private def Level.readLong (level : Level) (body : String) : Reading :=
  let (name, value) : String × Option String := match Text.cutFirst? "=" body with
    | some (name, value) => (name, some value)
    | none => (body, none)
  if name = "help" ∧ value.isNone then .stop .help
  else if name = "version" ∧ value.isNone ∧ level.hasVersion then .stop .version
  else
    match level.options.find? (·.long = name) with
    | some option => .option option value
    | none => .stop .wrongUsage

private def Level.readShort (level : Level) (letter : Char) (rest : List Char) : Reading :=
  if letter = 'h' then .stop .help
  else if letter = 'V' ∧ level.hasVersion then .stop .version
  else
    match level.options.find? (·.short? = some letter) with
    | none => .stop .wrongUsage
    | some option =>
      match rest with
      | [] => .option option none
      | '=' :: value => .option option (some (String.ofList value))
      | value => .option option (some (String.ofList value))

private def Level.read (level : Level) (arg : String) : Reading :=
  match arg.toList with
  | '-' :: '-' :: body => level.readLong (String.ofList body)
  | '-' :: letter :: rest => level.readShort letter rest
  | _ => .stop .wrongUsage

/-- The options at one place, and the command with what follows it. -/
def Level.parse (level : Level) :
    Given → List String → Except Stop (Given × Option (String × List String))
  | given, [] => .ok (given, none)
  | given, arg :: rest =>
    if level.commands.contains arg then .ok (given, some (arg, rest))
    else if arg = "--" then if rest.isEmpty then .ok (given, none) else .error .wrongUsage
    else
      match level.read arg with
      | .stop stop => .error stop
      | .option name (some value) => do
        let given ← add given name value
        level.parse given rest
      | .option name none =>
        match rest with
        | value :: rest =>
          if isValue value then do
            let given ← add given name value
            level.parse given rest
          else .error .wrongUsage
        | [] => .error .wrongUsage

/-- The path that `config` is given: after the command, else before it, else by the environment.  An
empty variable is refused where it would be read. -/
private def configOf (top sub : Given) (configFile? : Option String) :
    Except Stop (Option Path) :=
  let isOpen := (top.first? .config).isNone || (sub.first? .config).isNone
  if isOpen && configFile? = some "" then .error .wrongUsage
  else .ok ((sub.first? .config).or ((top.first? .config).or configFile?))

private def required (given : Given) (name : OptionName) : Except Stop String :=
  match given.first? name with
  | some value => .ok value
  | none => .error .wrongUsage

private def groupsOf (given : Given) : Except Stop GroupsCommand := do
  let type ← required given .type
  let operation ← (OperationType.ofName (← required given .operation)).mapError fun _ => .wrongUsage
  let direction ← match given.first? .direction with
    | some name => (Direction.ofName name).mapError fun _ => .wrongUsage
    | none => .ok .normalization
  return { type, operation, direction, object := given.first? .object, roles := given.all .role }

/-- Reads the arguments; `configFile?` is the configuration file that the environment names. -/
def parse (args : List String) (configFile? : Option String) : Except Stop Invocation := do
  let (top, command?) ← Level.top.parse [] args
  let finish (sub : Given) (command : Command) : Except Stop Invocation := do
    let config ← configOf top sub configFile?
    let format := ((sub.first? .format).or (top.first? .format)).bind OutputFormat.ofName?
    return { config, format := format.getD .text, command }
  match command? with
  | some ("tables", rest) =>
    let (sub, _) ← Level.ofTables.parse [] rest
    finish sub (.tables (sub.first? .type))
  | some ("groups", rest) =>
    let (sub, _) ← Level.ofGroups.parse [] rest
    finish sub (.groups (← groupsOf sub))
  | some ("help", []) => .error .help
  | some ("help", [topic]) =>
    if Level.top.commands.contains topic then .error .help else .error .wrongUsage
  | _ => .error .wrongUsage

end Visibility.CommandLine
