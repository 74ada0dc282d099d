import Visibility.Yaml.Quoted
import Visibility.Yaml.Token

set_option autoImplicit false
set_option relaxedAutoImplicit false

/-!
Tags, anchors and directives as they are written.
-/

namespace Visibility.Yaml

def isNameChar (c : Char) : Bool :=
  c.isAlphanum || c = '_' || c = '-'

namespace Tag

/-- Characters of a tag, apart from those that stand only inside `!<` and `>`. -/
def isUriChar (c : Char) : Bool :=
  isNameChar c || [';', '/', '?', ':', '@', '&', '=', '+', '$', '.', '%', '!', '~', '*', '\'', '(',
    ')'].contains c

def isFullUriChar (c : Char) : Bool :=
  isUriChar c || c = ',' || c = '[' || c = ']'

private def octet? (cursor : Cursor) : Option (Nat × Cursor) :=
  match cursor.rest with
  | '%' :: high :: low :: _ => do
    let number ← Quoted.hexNumber? [high, low]
    some (number, cursor.skip 3)
  | _ => none

/-- The octets of a character after its first one. -/
private def continuation? : Nat → Nat → Cursor → Option (Nat × Cursor)
  | 0, code, cursor => some (code, cursor)
  | count + 1, code, cursor => do
    let (octet, cursor) ← octet? cursor
    if octet / 64 ≠ 2 then none
    continuation? count (64 * code + octet % 64) cursor

/-- The character that a run of escaped octets writes in UTF-8.  The octets have to fit together;
those that are longer than needed, or write a code that no character has, stand for none. -/
private def escaped? (cursor : Cursor) : Option (Option Char × Cursor) := do
  let (first, cursor) ← octet? cursor
  let (count, start, least) ←
    if first < 0x80 then some (0, first, 0)
    else if first / 32 = 6 then some (1, first % 32, 0x80)
    else if first / 16 = 14 then some (2, first % 16, 0x800)
    else if first / 8 = 30 then some (3, first % 8, 0x10000)
    else none
  let (code, cursor) ← continuation? count start cursor
  return (if code < least then none else Quoted.character? code, cursor)

private def uriFrom? (allowed : Char → Bool) : Nat → List (Option Char) → Cursor →
    Option (List (Option Char) × Cursor)
  | 0, _, _ => none
  | fuel + 1, done, cursor =>
    match cursor.rest with
    | c :: _ =>
      if !allowed c then some (done.reverse, cursor)
      else if c = '%' then do
        let (c, cursor) ← escaped? cursor
        uriFrom? allowed fuel (c :: done) cursor
      else uriFrom? allowed fuel (some c :: done) cursor.next
    | [] => some (done.reverse, cursor)

def uri? (allowed : Char → Bool) (cursor : Cursor) : Option (List (Option Char) × Cursor) :=
  uriFrom? allowed (cursor.rest.length + 1) [] cursor

/-- The start of a tag: `!`, a name and perhaps a second `!`. -/
def handle? (cursor : Cursor) : Option (List Char × Cursor) :=
  if cursor.isAt '!' then
    let (name, cursor) := cursor.next.span isNameChar
    if cursor.isAt '!' then some ('!' :: name ++ ['!'], cursor.next) else some ('!' :: name, cursor)
  else none

def isNamed (handle : List Char) : Bool :=
  1 < handle.length && handle.getLast? = some '!'

private def full? (cursor : Cursor) : Option (Token × Cursor) := do
  let (suffix, cursor) ← uri? isFullUriChar (cursor.skip 2)
  if suffix.isEmpty || !cursor.isAt '>' then none
  return (.tag "" (.ofChars suffix), cursor.next)

/-- A tag of the form `!suffix` or `!handle!suffix`; a lone `!` is the tag `!` in full. -/
private def short? (cursor : Cursor) : Option (Token × Cursor) := do
  let (handle, cursor) ← handle? cursor
  let (rest, cursor) ← uri? isUriChar cursor
  if isNamed handle then
    if rest.isEmpty then none
    return (.tag (String.ofList handle) (.ofChars rest), cursor)
  else
    let suffix := TagText.ofChars (handle.tail.map some ++ rest)
    if suffix.text.isEmpty then return (.tag "" ⟨"!", true⟩, cursor)
    return (.tag "!" suffix, cursor)

/-- Reads a tag, which ends before a blank, a break or, inside brackets, a comma. -/
def read? (inFlow : Bool) (cursor : Cursor) : Option (Token × Cursor) := do
  let (tag, cursor) ←
    if ['!', '<'].isPrefixOf cursor.rest then full? cursor else short? cursor
  if cursor.isGapAfter 0 || (inFlow && cursor.isAt ',') then some (tag, cursor) else none

end Tag

def anchorName? (cursor : Cursor) : Option (String × Cursor) :=
  let (name, cursor) := cursor.next.span isNameChar
  let mayFollow (c : Char) := ['?', ':', ',', ']', '}', '%', '@', '\x60'].contains c
  if name.isEmpty || !(cursor.isGapAfter 0 || cursor.sees mayFollow) then none
  else some (String.ofList name, cursor)

namespace Directive

private def number? (cursor : Cursor) : Option (Nat × Cursor) :=
  let (digits, cursor) := cursor.span Char.isDigit
  if digits.isEmpty || 9 < digits.length then none
  else some (digits.foldl (fun n c => 10 * n + (c.toNat - '0'.toNat)) 0, cursor)

private def version? (cursor : Cursor) : Option (Token × Cursor) := do
  let (major, cursor) ← number? (cursor.skipWhile isBlank)
  if !cursor.isAt '.' then none
  let (minor, cursor) ← number? cursor.next
  return (.version major minor, cursor)

private def handle? (cursor : Cursor) : Option (Token × Cursor) := do
  let (handle, cursor) ← Tag.handle? (cursor.skipWhile isBlank)
  if handle ≠ ['!'] && !Tag.isNamed handle then none
  if !cursor.sees isBlank then none
  let (lead, cursor) ← Tag.uri? Tag.isFullUriChar (cursor.skipWhile isBlank)
  if lead.isEmpty || !cursor.isGapAfter 0 then none
  return (.handle (String.ofList handle) (.ofChars lead), cursor)

def read? (cursor : Cursor) : Option (Token × Cursor) := do
  let (name, cursor) := cursor.next.span isNameChar
  if name.isEmpty || !cursor.isGapAfter 0 then none
  let (token, cursor) ←
    if name = "YAML".toList then version? cursor
    else if name = "TAG".toList then handle? cursor
    else none
  let cursor ← cursor.lineEnd?
  return (token, cursor.next)

end Directive

end Visibility.Yaml
