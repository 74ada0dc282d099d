import Visibility.Yaml.BlockText
import Visibility.Yaml.Plain
import Visibility.Yaml.Tag

set_option autoImplicit false
set_option relaxedAutoImplicit false

/-!
From a YAML text to its tokens.

A key without a `?` is known as a key only when its colon is met.  So a place where a key could begin
is remembered as a candidate, and the `key` token, with the token that opens its block mapping, is put
there later.  A key without a `?` stands on one line and takes at most 1024 octets of UTF-8.
-/

namespace Visibility.Yaml

/-- A place where a key may have begun. -/
structure Candidate where
  /-- How many tokens stand before it. -/
  position : Nat
  /-- Whether only a key can stand there. -/
  required : Bool
  place : Place
deriving DecidableEq, Repr

structure Lexer where
  cursor : Cursor
  tokens : Array Token := #[]
  /-- Columns of the open block collections, the innermost first. -/
  columns : List Nat := []
  candidate : Option Candidate := none
  /-- Candidates of the levels around the current brackets, one for each open bracket. -/
  outer : List (Option Candidate) := []
  /-- Whether a key without a `?` may begin here. -/
  keyAllowed : Bool := true

namespace Lexer

def inFlow (lexer : Lexer) : Bool :=
  !lexer.outer.isEmpty

def column (lexer : Lexer) : Nat :=
  lexer.cursor.column

def least (lexer : Lexer) : Nat :=
  match lexer.columns with
  | [] => 0
  | column :: _ => column + 1

def push (lexer : Lexer) (token : Token) : Lexer :=
  { lexer with tokens := lexer.tokens.push token }

def insertAt (lexer : Lexer) (position : Nat) (token : Token) : Lexer :=
  { lexer with tokens := lexer.tokens.insertIdxIfInBounds position token }

def moveTo (lexer : Lexer) (cursor : Cursor) : Lexer :=
  { lexer with cursor := cursor }

def skip (lexer : Lexer) (count : Nat) : Lexer :=
  lexer.moveTo (lexer.cursor.skip count)

def allowKey (lexer : Lexer) (flag : Bool) : Lexer :=
  { lexer with keyAllowed := flag }

/-- Closes the block collections that begin beyond a column; without one, all of them. -/
def closeBeyond (lexer : Lexer) (column : Option Nat) : Lexer :=
  if lexer.inFlow then lexer
  else
    let isBeyond (open_ : Nat) := (column.map fun column => decide (column < open_)).getD true
    let closed := lexer.columns.takeWhile isBeyond
    { lexer with
      columns := lexer.columns.dropWhile isBeyond
      tokens := lexer.tokens ++ Array.replicate closed.length Token.blockEnd }

/-- Opens a block collection at a column that is not inside brackets, unless one is open there. -/
def openAt (lexer : Lexer) (column position : Nat) (token : Token) : Lexer :=
  if lexer.inFlow || column < lexer.least then lexer
  else { lexer.insertAt position token with columns := column :: lexer.columns }

def openHere (lexer : Lexer) (token : Token) : Lexer :=
  lexer.openAt lexer.column lexer.tokens.size token

def giveUp? : Option Candidate → Option (Option Candidate)
  | some candidate => if candidate.required then none else some none
  | none => some none

def dropCandidate? (lexer : Lexer) : Option Lexer := do
  let candidate ← giveUp? lexer.candidate
  return { lexer with candidate := candidate }

def saveCandidate? (lexer : Lexer) : Option Lexer :=
  if lexer.keyAllowed then do
    let lexer ← lexer.dropCandidate?
    let required := !lexer.inFlow && lexer.least = lexer.column + 1
    let candidate : Candidate := ⟨lexer.tokens.size, required, lexer.cursor.place⟩
    return { lexer with candidate := some candidate }
  else some lexer

/-- Gives up the candidates that are on an earlier line or too far back. -/
def dropStale? (lexer : Lexer) : Option Lexer := do
  let isStale (candidate : Candidate) : Bool :=
    candidate.place.line < lexer.cursor.line || candidate.place.offset + 1024 < lexer.cursor.offset
  let check (candidate : Option Candidate) : Option (Option Candidate) :=
    if (candidate.map isStale).getD false then giveUp? candidate else some candidate
  let candidate ← check lexer.candidate
  let outer ← lexer.outer.mapM check
  return { lexer with candidate := candidate, outer := outer }

/-- Goes on to the next token, past blanks, comments and breaks.  A tab is refused as a token where
a key may begin outside of brackets. -/
private def skipSpace : Nat → Lexer → Lexer
  | 0, lexer => lexer
  | fuel + 1, lexer =>
    let cursor := lexer.cursor
    let cursor := if cursor.column = 0 && cursor.isAt '\ufeff' then cursor.next else cursor
    let takesTabs := lexer.inFlow || !lexer.keyAllowed
    let cursor := cursor.skipWhile fun c => c = ' ' || (takesTabs && c = '\t')
    let cursor := if cursor.isAt '#' then cursor.skipWhile fun _ => true else cursor
    if cursor.sees isBreak then
      skipSpace fuel ((lexer.moveTo cursor.next).allowKey (!lexer.inFlow || lexer.keyAllowed))
    else lexer.moveTo cursor

private def mark (lexer : Lexer) (count : Nat) (token : Token) : Lexer :=
  (lexer.push token).skip count

private def leaveBlocks? (lexer : Lexer) : Option Lexer := do
  let lexer ← (lexer.closeBeyond none).dropCandidate?
  return lexer.allowKey false

private def documentMark? (lexer : Lexer) (token : Token) : Option Lexer := do
  let lexer ← lexer.leaveBlocks?
  return lexer.mark 3 token

private def directive? (lexer : Lexer) : Option Lexer := do
  let lexer ← lexer.leaveBlocks?
  let (token, cursor) ← Directive.read? lexer.cursor
  return (lexer.push token).moveTo cursor

private def openBracket? (lexer : Lexer) (token : Token) : Option Lexer := do
  let lexer ← lexer.saveCandidate?
  let lexer := { lexer with outer := lexer.candidate :: lexer.outer, candidate := none }
  return (lexer.allowKey true).mark 1 token

private def closeBracket? (lexer : Lexer) (token : Token) : Option Lexer := do
  let lexer ← lexer.dropCandidate?
  let lexer := match lexer.outer with
    | candidate :: outer => { lexer with candidate := candidate, outer := outer }
    | [] => lexer
  return (lexer.allowKey false).mark 1 token

private def comma? (lexer : Lexer) : Option Lexer := do
  let lexer ← lexer.dropCandidate?
  return (lexer.allowKey true).mark 1 .comma

private def item? (lexer : Lexer) : Option Lexer := do
  if !lexer.inFlow && !lexer.keyAllowed then none
  let lexer ← (lexer.openHere .blockSequence).dropCandidate?
  return (lexer.allowKey true).mark 1 .item

private def key? (lexer : Lexer) : Option Lexer := do
  if !lexer.inFlow && !lexer.keyAllowed then none
  let lexer ← (lexer.openHere .blockMapping).dropCandidate?
  return (lexer.allowKey (!lexer.inFlow)).mark 1 .key

private def value? (lexer : Lexer) : Option Lexer :=
  match lexer.candidate with
  | some candidate =>
    let lexer := { lexer with candidate := none }
    let lexer := lexer.insertAt candidate.position .key
    let lexer := lexer.openAt candidate.place.column candidate.position .blockMapping
    some ((lexer.allowKey false).mark 1 .value)
  | none =>
    if !lexer.inFlow && !lexer.keyAllowed then none
    else some (((lexer.openHere .blockMapping).allowKey (!lexer.inFlow)).mark 1 .value)

/-- A token that can begin a key. -/
private def leaf? (lexer : Lexer) (read : Lexer → Option (Token × Cursor)) : Option Lexer := do
  let lexer ← lexer.saveCandidate?
  let (token, cursor) ← read lexer
  return ((lexer.allowKey false).push token).moveTo cursor

private def quoted? (lexer : Lexer) (style : Quoted.Style) : Option Lexer :=
  lexer.leaf? fun lexer => do
    let (text, cursor) ← Quoted.read? style lexer.cursor
    return (.scalar text false, cursor)

private def plain? (lexer : Lexer) : Option Lexer := do
  let lexer ← lexer.saveCandidate?
  let result ← Plain.read? ⟨lexer.inFlow, lexer.least⟩ lexer.cursor
  let lexer := (lexer.push (.scalar result.text true)).moveTo result.cursor
  return lexer.allowKey result.brokeLine

private def block? (lexer : Lexer) (style : BlockText.Style) : Option Lexer := do
  let lexer ← lexer.dropCandidate?
  let (text, cursor) ← BlockText.read? style lexer.least lexer.cursor.next
  return ((lexer.push (.scalar text false)).moveTo cursor).allowKey true

private def beginsPlain (lexer : Lexer) (c : Char) : Bool :=
  let isMark := ['-', '?', ':', ',', '[', ']', '{', '}', '#', '&', '*', '!', '|', '>', '\'', '"',
    '%', '@', '\x60'].contains c
  !(isBlankOrBreak c || isMark) ||
    (c = '-' && !lexer.cursor.next.sees isBlank) ||
    (!lexer.inFlow && (c = '?' || c = ':') && !lexer.cursor.isGapAfter 1)

private def token? (lexer : Lexer) (c : Char) : Option Lexer :=
  let isSeparate := lexer.cursor.isGapAfter 1
  if lexer.column = 0 && c = '%' then lexer.directive?
  else if lexer.cursor.isAtMark '-' then lexer.documentMark? .documentStart
  else if lexer.cursor.isAtMark '.' then lexer.documentMark? .documentEnd
  else if c = '[' then lexer.openBracket? .flowSequence
  else if c = '{' then lexer.openBracket? .flowMapping
  else if c = ']' then lexer.closeBracket? .flowSequenceEnd
  else if c = '}' then lexer.closeBracket? .flowMappingEnd
  else if c = ',' then lexer.comma?
  else if c = '-' && isSeparate then lexer.item?
  else if c = '?' && (lexer.inFlow || isSeparate) then lexer.key?
  else if c = ':' && (lexer.inFlow || isSeparate) then lexer.value?
  else if c = '*' then lexer.leaf? fun lexer => do
    let (name, cursor) ← anchorName? lexer.cursor
    return (.reference name, cursor)
  else if c = '&' then lexer.leaf? fun lexer => do
    let (name, cursor) ← anchorName? lexer.cursor
    return (.anchor name, cursor)
  else if c = '!' then lexer.leaf? fun lexer => Tag.read? lexer.inFlow lexer.cursor
  else if c = '|' && !lexer.inFlow then lexer.block? .literal
  else if c = '>' && !lexer.inFlow then lexer.block? .folded
  else if c = '\'' then lexer.quoted? .single
  else if c = '"' then lexer.quoted? .double
  else if lexer.beginsPlain c then lexer.plain?
  else none

private def run? : Nat → Lexer → Option Lexer
  | 0, _ => none
  | fuel + 1, lexer => do
    let lexer ← (skipSpace (lexer.cursor.rest.length + 1) lexer).dropStale?
    let lexer := lexer.closeBeyond (some lexer.column)
    match lexer.cursor.rest with
    | [] => (lexer.closeBeyond none).dropCandidate?
    | c :: _ => run? fuel (← lexer.token? c)

end Lexer

def Token.scan? (text : String) : Option (List Token) := do
  let chars ← normalized? text.toList
  let lexer ← Lexer.run? (chars.length + 1) { cursor := ⟨chars, {}⟩ }
  return lexer.tokens.toList

end Visibility.Yaml
