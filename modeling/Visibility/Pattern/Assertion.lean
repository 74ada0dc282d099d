import Visibility.Text.WordChar

set_option autoImplicit false
set_option relaxedAutoImplicit false

/-!
Conditions on a place in a text, by the characters before and after it.
-/

namespace Visibility

inductive WordEdge where
  | boundary
  | noBoundary
  | start
  | finish
  /-- No word before, whatever comes after. -/
  | startHalf
  /-- No word after, whatever came before. -/
  | finishHalf
deriving DecidableEq, Repr

inductive Assertion where
  | textStart
  | textEnd
  | lineStart
  | lineEnd
  /-- Line ends of the form `\r`, `\n` or `\r\n`. -/
  | anyLineStart
  | anyLineEnd
  /-- An edge of words of all scripts or of ASCII. -/
  | word (edge : WordEdge) (asciiOnly : Bool)
deriving DecidableEq, Repr

def WordEdge.holds (edge : WordEdge) (before after : Bool) : Bool :=
  match edge with
  | boundary => before != after
  | noBoundary => before == after
  | start => !before && after
  | finish => before && !after
  | startHalf => !before
  | finishHalf => !after

def Assertion.holds (assertion : Assertion) (before after : Option Char) : Bool :=
  match assertion with
  | textStart => before.isNone
  | textEnd => after.isNone
  | lineStart => before.isNone || before == some '\n'
  | lineEnd => after.isNone || after == some '\n'
  | anyLineStart =>
    before.isNone || before == some '\n' || (before == some '\r' && after != some '\n')
  | anyLineEnd =>
    after.isNone || after == some '\r' || (after == some '\n' && before != some '\r')
  | word edge asciiOnly =>
    let isWord (c : Char) : Bool :=
      if asciiOnly then c.isAlphanum || c = '_' else Text.isWordChar c
    edge.holds (before.any isWord) (after.any isWord)

end Visibility
