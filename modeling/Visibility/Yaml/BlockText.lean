import Visibility.Yaml.Cursor

set_option autoImplicit false
set_option relaxedAutoImplicit false

/-!
Scalars that are written as an indented block of lines after `|` or `>`.
-/

namespace Visibility.Yaml.BlockText

inductive Style where
  | literal
  | folded
deriving DecidableEq, Repr

inductive Chomping where
  | strip
  | clip
  | keep
deriving DecidableEq, Repr

structure Header where
  chomping : Chomping := .clip
  /-- The written indentation, relative to the block around the scalar. -/
  increment : Option Nat := none

private def chomping? (cursor : Cursor) : Option (Chomping × Cursor) :=
  if cursor.isAt '+' then some (.keep, cursor.next)
  else if cursor.isAt '-' then some (.strip, cursor.next)
  else none

private def increment? (cursor : Cursor) : Option (Nat × Cursor) :=
  match cursor.rest with
  | c :: _ => if c.isDigit then some (c.toNat - '0'.toNat, cursor.next) else none
  | [] => none

/-- Reads the marks after `|` or `>`, in either order, to the end of the line. -/
def Header.read? (cursor : Cursor) : Option (Header × Cursor) := do
  let (header, cursor) : Header × Cursor :=
    match chomping? cursor with
    | some (chomping, cursor) =>
      match increment? cursor with
      | some (increment, cursor) => ({ chomping, increment := some increment }, cursor)
      | none => ({ chomping }, cursor)
    | none =>
      match increment? cursor with
      | some (increment, cursor) =>
        match chomping? cursor with
        | some (chomping, cursor) => ({ chomping, increment := some increment }, cursor)
        | none => ({ increment := some increment }, cursor)
      | none => ({}, cursor)
  if header.increment = some 0 then none
  let cursor ← cursor.lineEnd?
  return (header, cursor.next)

/-- Empty lines: their breaks, the largest column that blanks reached, and what follows. -/
structure EmptyLines where
  breaks : List Char
  reached : Nat
  cursor : Cursor

/-- Reads blanks up to column `indent`, if it is known, and breaks.  A tab among the blanks is
refused. -/
private def emptyLines? (indent : Option Nat) :
    List Char → Nat → List Char → Place → Option EmptyLines
  | breaks, reached, [], place => some ⟨breaks, max reached place.column, ⟨[], place⟩⟩
  | breaks, reached, c :: rest, place =>
    let isBefore := (indent.map fun column => decide (place.column < column)).getD true
    let reached := max reached place.column
    if c = ' ' && isBefore then emptyLines? indent breaks reached rest (place.after c)
    else if c = '\t' && isBefore then none
    else if isBreak c then emptyLines? indent (breaks ++ [c]) reached rest (place.after c)
    else some ⟨breaks, reached, ⟨c :: rest, place⟩⟩

private structure Progress where
  /-- The text so far, in reverse order, without the break after the last line. -/
  done : List Char
  /-- The break after the last line. -/
  lastBreak : Option Char
  /-- The breaks of empty lines after it. -/
  emptyBreaks : List Char
  /-- Whether the last line began with a blank. -/
  wasIndented : Bool
  cursor : Cursor

/-- The breaks before a line, after folding: a line feed between two lines that do not begin with a
blank becomes a blank, or nothing before empty lines. -/
private def Progress.joint (progress : Progress) (style : Style) (isIndented : Bool) : List Char :=
  let folds := style = .folded && progress.lastBreak = some '\n' && !progress.wasIndented &&
    !isIndented
  let first := if folds then if progress.emptyBreaks.isEmpty then [' '] else []
    else progress.lastBreak.toList
  first ++ progress.emptyBreaks

private def lines? (style : Style) (indent : Nat) : Nat → Progress → Option Progress
  | 0, progress => some progress
  | fuel + 1, progress =>
    let cursor := progress.cursor
    if cursor.rest.isEmpty || cursor.column ≠ indent then some progress
    else do
      let isIndented := cursor.sees isBlank
      let joint := progress.joint style isIndented
      let (line, cursor) := cursor.span fun _ => true
      let lastBreak := cursor.rest.head?
      let cursor := cursor.next
      let empty ← emptyLines? (some indent) [] 0 cursor.rest cursor.place
      lines? style indent fuel
        { done := line.reverse ++ joint.reverse ++ progress.done
          lastBreak
          emptyBreaks := empty.breaks
          wasIndented := isIndented
          cursor := empty.cursor }

/-- Reads a scalar after its `|` or `>`.  Its lines begin at column `least` or beyond. -/
def read? (style : Style) (least : Nat) (cursor : Cursor) : Option (String × Cursor) := do
  let (header, cursor) ← Header.read? cursor
  let known := header.increment.map fun increment => least - 1 + increment
  let empty ← emptyLines? known [] 0 cursor.rest cursor.place
  let indent := known.getD (max empty.reached (max least 1))
  let progress ← lines? style indent (cursor.rest.length + 1)
    ⟨[], none, empty.breaks, false, empty.cursor⟩
  let tail := match header.chomping with
    | .strip => []
    | .clip => progress.lastBreak.toList
    | .keep => progress.lastBreak.toList ++ progress.emptyBreaks
  return (String.ofList (progress.done.reverse ++ tail), progress.cursor)

end Visibility.Yaml.BlockText
