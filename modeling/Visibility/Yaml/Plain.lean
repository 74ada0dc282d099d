import Visibility.Yaml.Gap

set_option autoImplicit false
set_option relaxedAutoImplicit false

/-!
Scalars without quotes.
-/

namespace Visibility.Yaml.Plain

/-- Where a scalar stands: inside brackets or not, and the least column of its further lines. -/
structure Context where
  inFlow : Bool
  indent : Nat

structure Result where
  text : String
  /-- Whether the scalar was followed by a line break. -/
  brokeLine : Bool
  cursor : Cursor

def isFlowMark (c : Char) : Bool :=
  c = ',' || c = '[' || c = ']' || c = '{' || c = '}'

def endsAt (context : Context) (cursor : Cursor) (c : Char) : Bool :=
  (c = ':' && cursor.isGapAfter 1) || (context.inFlow && isFlowMark c)

/-- Inside brackets a colon must not be followed by a bracket, a comma or a question mark. -/
def isRefusedAt (context : Context) (cursor : Cursor) (c : Char) : Bool :=
  context.inFlow && c = ':' && cursor.next.sees fun following => isFlowMark following || following = '?'

/-- Reads on after the words in `done`, which is reversed, and the gap after them. -/
private def readFrom? (context : Context) : Nat → List Char → Gap → Cursor → Option Result
  | 0, _, _, _ => none
  | fuel + 1, done, gap, cursor =>
    let stop : Option Result := some ⟨String.ofList done.reverse, gap.isLines, cursor⟩
    match cursor.rest with
    | [] => stop
    | c :: _ =>
      let startsWord := gap != .blanks []
      if startsWord && (cursor.isAtDocumentMark || c = '#') then stop
      else if isBlankOrBreak c then do
        let (gap, cursor) ← (Gap.blanks []).read? context.indent cursor.rest cursor.place
        if !context.inFlow && cursor.column < context.indent then
          some ⟨String.ofList done.reverse, gap.isLines, cursor⟩
        else readFrom? context fuel done gap cursor
      else if isRefusedAt context cursor c then none
      else if endsAt context cursor c then stop
      else readFrom? context fuel (c :: gap.text.reverse ++ done) (.blanks []) cursor.next

def read? (context : Context) (cursor : Cursor) : Option Result :=
  readFrom? context (2 * cursor.rest.length + 1) [] (.blanks []) cursor

end Visibility.Yaml.Plain
