import Visibility.Yaml.Gap

set_option autoImplicit false
set_option relaxedAutoImplicit false

/-!
Scalars between single or double quotes.
-/

namespace Visibility.Yaml.Quoted

inductive Style where
  | single
  | double
deriving DecidableEq, Repr

def Style.mark : Style → Char
  | single => '\''
  | double => '"'

def letterEscapes : List (Char × Char) :=
  [('0', '\x00'), ('a', '\x07'), ('b', '\x08'), ('t', '\t'), ('\t', '\t'), ('n', '\n'),
    ('v', '\x0b'), ('f', '\x0c'), ('r', '\r'), ('e', '\x1b'), (' ', ' '), ('"', '"'), ('/', '/'),
    ('\\', '\\'), ('N', '\x85'), ('_', '\u00a0'), ('L', '\u2028'), ('P', '\u2029')]

/-- How many hexadecimal digits follow a letter. -/
def hexEscapes : List (Char × Nat) :=
  [('x', 2), ('u', 4), ('U', 8)]

def hexDigit? (c : Char) : Option Nat :=
  if '0' ≤ c ∧ c ≤ '9' then some (c.toNat - '0'.toNat)
  else if 'a' ≤ c ∧ c ≤ 'f' then some (c.toNat - 'a'.toNat + 10)
  else if 'A' ≤ c ∧ c ≤ 'F' then some (c.toNat - 'A'.toNat + 10)
  else none

def hexNumber? (digits : List Char) : Option Nat :=
  digits.foldlM (fun number c => do return 16 * number + (← hexDigit? c)) 0

def character? (code : Nat) : Option Char :=
  if code.isValidChar then some (Char.ofNat code) else none

/-- The character that an escape writes after its backslash, and how many characters write it. -/
def escape? (rest : List Char) : Option (Char × Nat) := do
  let letter ← rest.head?
  match letterEscapes.lookup letter with
  | some c => some (c, 1)
  | none => do
    let count ← hexEscapes.lookup letter
    let digits := rest.tail.take count
    if digits.length < count then none
    let c ← character? (← hexNumber? digits)
    some (c, count + 1)

private def readFrom? (style : Style) : Nat → List Char → Cursor → Option (String × Cursor)
  | 0, _, _ => none
  | fuel + 1, done, cursor =>
    if cursor.isAtDocumentMark then none
    else
      match cursor.rest with
      | [] => none
      | c :: more =>
        let afterGap (gap : Gap) (cursor : Cursor) := do
          let (gap, cursor) ← gap.read? 0 cursor.rest cursor.place
          readFrom? style fuel (gap.text.reverse ++ done) cursor
        if isBlankOrBreak c then afterGap (.blanks []) cursor
        else if c = style.mark then
          if style = .single ∧ more.head? = some '\'' then
            readFrom? style fuel ('\'' :: done) (cursor.skip 2)
          else some (String.ofList done.reverse, cursor.next)
        else if c = '\\' ∧ style = .double then
          if (more.head?.map isBreak).getD false then afterGap (.lines none []) (cursor.skip 2)
          else do
            let (written, count) ← escape? more
            readFrom? style fuel (written :: done) (cursor.skip (count + 1))
        else readFrom? style fuel (c :: done) cursor.next

def read? (style : Style) (cursor : Cursor) : Option (String × Cursor) :=
  readFrom? style (cursor.rest.length + 1) [] cursor.next

end Visibility.Yaml.Quoted
