import Visibility.Json.Writer
import Visibility.Mapping.Table
import Visibility.Operation

set_option autoImplicit false
set_option relaxedAutoImplicit false

/-!
Tables and groups as the command line prints them.
-/

namespace Visibility

def Entry.toJson (entry : Entry) : Json :=
  .object [
    ("name", .string entry.name),
    ("groups", .strings entry.groups.toList),
    ("max_depth", (entry.maxDepth.map fun depth => Json.int depth).getD .null),
    ("serialized_name", (entry.serializedName.map .string).getD .null),
    ("ignore", .bool entry.ignored)]

def Table.toJson (table : Table) : Json :=
  .object [
    ("type_id", .string table.type),
    ("attributes", .object (table.attributes.entries.map fun (name, entry) =>
      (name, entry.toJson))),
    ("all_groups", .strings table.allGroups.toList)]

namespace CommandLine

private def line (text : String) : String :=
  text ++ "\n"

private def lines (texts : List String) : String :=
  String.join (texts.map line)

private def groupLine (group : String) : String :=
  "    - " ++ group

private def limits (entry : Entry) : List String :=
  (entry.maxDepth.map fun depth => "max_depth=" ++ toString depth).toList ++
  (entry.serializedName.map fun name => "serialized_name=" ++ name).toList ++
  (if entry.ignored then ["ignored"] else [])

private def entryLines (entry : Entry) : List String :=
  let limits := limits entry
  let suffix := if limits.isEmpty then "" else " (" ++ ", ".intercalate limits ++ ")"
  ("  " ++ entry.name ++ suffix) :: entry.groups.toList.map groupLine

def tableText (table : Table) : String :=
  let allGroups :=
    if table.allGroups.isEmpty then []
    else "  all groups" :: table.allGroups.toList.map groupLine
  lines (table.type :: table.entries.flatMap entryLines ++ allGroups ++ [""])

structure GroupsReport where
  table : Table
  operation : OperationType
  direction : Direction
  groups : List String

namespace GroupsReport

def toJson (report : GroupsReport) : Json :=
  .object [
    ("type", .string report.table.type),
    ("operation", .string report.operation.name),
    ("direction", .string report.direction.name),
    ("groups", .strings report.groups)]

def text (report : GroupsReport) : String :=
  let title := "OK " ++ toString report.groups.length ++ " active group(s) for " ++
    report.table.type ++ " (" ++ report.operation.name ++ " " ++ report.direction.name ++ ")"
  let visible := (report.table.visible report.groups).map Entry.name
  lines (title :: report.groups.map ("  - " ++ ·) ++
    ["  visible fields: " ++ ", ".intercalate visible])

end GroupsReport

end CommandLine

end Visibility
