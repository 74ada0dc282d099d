import Visibility.Yaml.Cursor

set_option autoImplicit false
set_option relaxedAutoImplicit false

/-!
Blanks and line breaks inside a scalar, and what is left of them when lines are folded.
-/

namespace Visibility.Yaml

inductive Gap where
  /-- Blanks within a line, which are kept. -/
  | blanks (text : List Char)
  /-- Line breaks; blanks around them are dropped.  The first one is missing where it was escaped. -/
  | lines (first : Option Char) (others : List Char)
deriving DecidableEq, Repr

namespace Gap

/-- A single line feed is folded to a blank, and before further breaks to nothing. -/
def text : Gap → List Char
  | blanks text => text
  | lines (some '\n') [] => [' ']
  | lines (some '\n') others => others
  | lines first others => first.toList ++ others

def isLines : Gap → Bool
  | blanks _ => false
  | lines _ _ => true

def addBlank : Gap → Char → Gap
  | blanks text, c => blanks (text ++ [c])
  | lines first others, _ => lines first others

def addBreak : Gap → Char → Gap
  | blanks _, c => lines (some c) []
  | lines first others, c => lines first (others ++ [c])

/-- Reads on to the next character that is neither a blank nor a break.  A tab before column
`indent` of a new line is refused. -/
def read? (indent : Nat) : Gap → List Char → Place → Option (Gap × Cursor)
  | gap, [], place => some (gap, ⟨[], place⟩)
  | gap, c :: rest, place =>
    if isBlank c then
      if gap.isLines && c = '\t' && place.column < indent then none
      else read? indent (gap.addBlank c) rest (place.after c)
    else if isBreak c then read? indent (gap.addBreak c) rest (place.after c)
    else some (gap, ⟨c :: rest, place⟩)

end Gap

end Visibility.Yaml
