set_option autoImplicit false
set_option relaxedAutoImplicit false

/-!
Places in a YAML text.

All line breaks but the line and the paragraph separator are read as `\n`, so that a break is one
character everywhere after `normalized?`.
-/

namespace Visibility.Yaml

def isPrintable (c : Char) : Bool :=
  c = '\t' || c = '\n' || c = '\r' || (' ' ≤ c && c ≤ '~') || c = '\x85' ||
    ('\u00a0' ≤ c && c ≤ '\ufffd') || 0x10000 ≤ c.toNat

/-- A text with one character for each line break; a control character makes it unreadable. -/
def normalized? : List Char → Option (List Char)
  | [] => some []
  | '\r' :: '\n' :: rest => (normalized? rest).map ('\n' :: ·)
  | c :: rest =>
    if !isPrintable c then none
    else (normalized? rest).map ((if c = '\r' || c = '\x85' then '\n' else c) :: ·)

def isBlank (c : Char) : Bool :=
  c = ' ' || c = '\t'

def isBreak (c : Char) : Bool :=
  c = '\n' || c = '\u2028' || c = '\u2029'

def isBlankOrBreak (c : Char) : Bool :=
  isBlank c || isBreak c

/-- A line, a column in characters, and how many octets of UTF-8 stand before; all from 0. -/
structure Place where
  line : Nat := 0
  column : Nat := 0
  offset : Nat := 0
deriving DecidableEq, Repr

def Place.after (place : Place) (c : Char) : Place :=
  let offset := place.offset + c.utf8Size
  if isBreak c then ⟨place.line + 1, 0, offset⟩ else ⟨place.line, place.column + 1, offset⟩

/-- The rest of a text, and where it begins. -/
structure Cursor where
  rest : List Char
  place : Place := {}

namespace Cursor

def line (cursor : Cursor) : Nat := cursor.place.line

def column (cursor : Cursor) : Nat := cursor.place.column

def offset (cursor : Cursor) : Nat := cursor.place.offset

def next (cursor : Cursor) : Cursor :=
  match cursor.rest with
  | [] => cursor
  | c :: rest => ⟨rest, cursor.place.after c⟩

def skip (cursor : Cursor) : Nat → Cursor
  | 0 => cursor
  | count + 1 => cursor.next.skip count

def span (cursor : Cursor) (p : Char → Bool) : List Char × Cursor :=
  let run := cursor.rest.takeWhile fun c => !isBreak c && p c
  (run, ⟨cursor.rest.drop run.length, run.foldl Place.after cursor.place⟩)

def skipWhile (cursor : Cursor) (p : Char → Bool) : Cursor :=
  (cursor.span p).2

def sees (cursor : Cursor) (p : Char → Bool) : Bool :=
  match cursor.rest with
  | c :: _ => p c
  | [] => false

def isAt (cursor : Cursor) (c : Char) : Bool :=
  cursor.sees (· = c)

/-- Whether a blank, a break or the end stands after `ahead` more characters. -/
def isGapAfter (cursor : Cursor) (ahead : Nat) : Bool :=
  match cursor.rest[ahead]? with
  | some c => isBlankOrBreak c
  | none => true

def isAtLineEnd (cursor : Cursor) : Bool :=
  match cursor.rest with
  | c :: _ => isBreak c
  | [] => true

/-- The cursor at the end of a line that holds nothing more but a comment. -/
def lineEnd? (cursor : Cursor) : Option Cursor :=
  let cursor := cursor.skipWhile isBlank
  let cursor := if cursor.isAt '#' then cursor.skipWhile fun _ => true else cursor
  if cursor.isAtLineEnd then some cursor else none

def isAtMark (cursor : Cursor) (mark : Char) : Bool :=
  cursor.column = 0 && [mark, mark, mark].isPrefixOf cursor.rest && cursor.isGapAfter 3

def isAtDocumentMark (cursor : Cursor) : Bool :=
  cursor.isAtMark '-' || cursor.isAtMark '.'

end Cursor

end Visibility.Yaml
