set_option autoImplicit false
set_option relaxedAutoImplicit false

/-!
Tokens of a YAML text.  Block collections are bracketed by tokens of their own, as collections in
brackets are.
-/

namespace Visibility.Yaml

/-- The text of a tag.  Octets that are escaped in it need not write a character: what they stand for
is U+FFFD, and the text is not readable then. -/
structure TagText where
  text : String
  isReadable : Bool := true
deriving DecidableEq, Repr

namespace TagText

def ofChars (chars : List (Option Char)) : TagText :=
  let kept := chars.takeWhile (· ≠ some '\x00')
  ⟨String.ofList (kept.map (·.getD '\ufffd')), kept.all Option.isSome⟩

def append (a b : TagText) : TagText :=
  ⟨a.text ++ b.text, a.isReadable && b.isReadable⟩

end TagText

inductive Token where
  | version (major minor : Nat)
  /-- The beginning that a handle stands for. -/
  | handle (handle : String) (lead : TagText)
  | documentStart
  | documentEnd
  | blockSequence
  | blockMapping
  | blockEnd
  | flowSequence
  | flowSequenceEnd
  | flowMapping
  | flowMappingEnd
  /-- The dash before an item of a block sequence. -/
  | item
  /-- The comma inside brackets. -/
  | comma
  | key
  | value
  | reference (name : String)
  | anchor (name : String)
  /-- A tag by its handle, which is empty for a tag that is written in full, and its suffix. -/
  | tag (handle : String) (suffix : TagText)
  | scalar (text : String) (plain : Bool)
deriving DecidableEq, Repr

end Visibility.Yaml
