import Visibility.Json.Basic

set_option autoImplicit false
set_option relaxedAutoImplicit false

/-!
JSON text, on one line or indented by two blanks a level.
-/

namespace Visibility.Json

private def hexDigit (n : Nat) : Char :=
  (Nat.digitChar n)

/-- A character inside quotes; control characters without a short escape are written in hexadecimal. -/
private def escaped (c : Char) : List Char :=
  if c = '"' then ['\\', '"']
  else if c = '\\' then ['\\', '\\']
  else if c = '\n' then ['\\', 'n']
  else if c = '\r' then ['\\', 'r']
  else if c = '\t' then ['\\', 't']
  else if c = '\x08' then ['\\', 'b']
  else if c = '\x0c' then ['\\', 'f']
  else if c.toNat < 32 then
    ['\\', 'u', '0', '0', hexDigit (c.toNat / 16), hexDigit (c.toNat % 16)]
  else [c]

def quoted (text : String) : String :=
  String.ofList ('"' :: text.toList.flatMap escaped ++ ['"'])

mutual

def compact : Json → String
  | null => "null"
  | bool value => if value then "true" else "false"
  | number value => value.text
  | string value => quoted value
  | array items => "[" ++ compactItems "" items ++ "]"
  | object fields => "\x7b" ++ compactFields "" fields ++ "\x7d"

/-- The items, each after `lead` or a comma. -/
private def compactItems (lead : String) : List Json → String
  | [] => ""
  | item :: rest => lead ++ compact item ++ compactItems "," rest

private def compactFields (lead : String) : Fields → String
  | [] => ""
  | (name, value) :: rest => lead ++ quoted name ++ ":" ++ compact value ++ compactFields "," rest

end

private def newline (level : Nat) : String :=
  "\n" ++ String.ofList (List.replicate (2 * level) ' ')

mutual

/-- The text of a value with one item or field a line, indented from `level` on. -/
def prettyAt (level : Nat) : Json → String
  | null => "null"
  | bool value => if value then "true" else "false"
  | number value => value.text
  | string value => quoted value
  | array items =>
    if items.isEmpty then "[]"
    else "[" ++ prettyItems (level + 1) "" items ++ newline level ++ "]"
  | object fields =>
    if fields.isEmpty then "\x7b\x7d"
    else "\x7b" ++ prettyFields (level + 1) "" fields ++ newline level ++ "\x7d"

private def prettyItems (level : Nat) (lead : String) : List Json → String
  | [] => ""
  | item :: rest =>
    lead ++ newline level ++ prettyAt level item ++ prettyItems level "," rest

private def prettyFields (level : Nat) (lead : String) : Fields → String
  | [] => ""
  | (name, value) :: rest =>
    lead ++ newline level ++ quoted name ++ ": " ++ prettyAt level value ++
      prettyFields level "," rest

end

def pretty (value : Json) : String :=
  prettyAt 0 value

end Visibility.Json
