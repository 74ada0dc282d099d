import Visibility.Expression.Syntax

set_option autoImplicit false
set_option relaxedAutoImplicit false

/-!
Tokens of security expressions, and their scanner.

`&&` and `and` are one token, and so are `||` and `or`; `!` and `not` are two, because only the word
makes up `not in`.
-/

namespace Visibility

inductive Token where
  | name (text : String)
  | string (text : String)
  | int (value : Nat)
  | float (value : Float)
  | true
  | false
  | null
  | or
  | and
  | not
  | bang
  | minus
  | isIn
  /-- Comparisons other than those with `in`. -/
  | comparison (op : Comparison)
  | dot
  | comma
  | openParen
  | closeParen
  | openBracket
  | closeBracket
deriving DecidableEq

namespace Token

def isBlank (c : Char) : Bool :=
  c = ' ' || c = '\t' || c = '\r' || c = '\n'

def isNameStart (c : Char) : Bool :=
  c.isAlpha || c = '_'

def isNameChar (c : Char) : Bool :=
  c.isAlphanum || c = '_'

def ofWord (word : String) : Token :=
  match word with
  | "and" => and
  | "or" => or
  | "not" => not
  | "in" => isIn
  | "matches" => comparison .isMatch
  | "true" => true
  | "false" => false
  | "null" => null
  | _ => name word

/-- The character that an escape stands for; an unknown one stands for itself. -/
def unescape (c : Char) : Char :=
  if c = 'n' then '\n' else if c = 'r' then '\r' else if c = 't' then '\t' else c

/-- The text up to the closing quote, and the rest after it. -/
def quotedTail (quote : Char) : List Char → Option (List Char × List Char)
  | [] => none
  | c :: rest =>
    if c = quote then some ([], rest)
    else if c = '\\' then
      match rest with
      | [] => none
      | e :: rest => (quotedTail quote rest).map fun (text, after) => (unescape e :: text, after)
    else (quotedTail quote rest).map fun (text, after) => (c :: text, after)

def natOfDigits (digits : List Char) : Nat :=
  digits.foldl (fun n c => 10 * n + (c.toNat - '0'.toNat)) 0

def decimals : List Char → List Char
  | '.' :: rest => rest.takeWhile Char.isDigit
  | _ => []

/-- A number without a sign.  Nothing is read when the value is out of range. -/
def number? (cs : List Char) : Option (Token × List Char) :=
  let whole := cs.takeWhile Char.isDigit
  let rest := cs.dropWhile Char.isDigit
  let places := decimals rest
  if places.isEmpty then
    let value := natOfDigits whole
    if value < 0x8000000000000000 then some (int value, rest) else none
  else
    let value := Decimal.nearest (natOfDigits (whole ++ places)) (-(places.length : Int))
    if value.isFinite then some (float value, rest.drop (places.length + 1)) else none

/-- The token at the start of a text without leading blanks, and the rest. -/
def next? : List Char → Option (Token × List Char)
  | '=' :: '=' :: '=' :: rest => some (comparison .identical, rest)
  | '!' :: '=' :: '=' :: rest => some (comparison .notIdentical, rest)
  | '=' :: '=' :: rest => some (comparison .eq, rest)
  | '!' :: '=' :: rest => some (comparison .notEq, rest)
  | '<' :: '=' :: rest => some (comparison .le, rest)
  | '>' :: '=' :: rest => some (comparison .ge, rest)
  | '&' :: '&' :: rest => some (and, rest)
  | '|' :: '|' :: rest => some (or, rest)
  | [] => none
  | c :: rest =>
    if c = '<' then some (comparison .lt, rest)
    else if c = '>' then some (comparison .gt, rest)
    else if c = '!' then some (bang, rest)
    else if c = '-' then some (minus, rest)
    else if c = '.' then some (dot, rest)
    else if c = ',' then some (comma, rest)
    else if c = '(' then some (openParen, rest)
    else if c = ')' then some (closeParen, rest)
    else if c = '[' then some (openBracket, rest)
    else if c = ']' then some (closeBracket, rest)
    else if c = '\'' ∨ c = '"' then
      (quotedTail c rest).map fun (text, after) => (string (String.ofList text), after)
    else if c.isDigit then number? (c :: rest)
    else if isNameStart c then
      some (ofWord (String.ofList (c :: rest.takeWhile isNameChar)), rest.dropWhile isNameChar)
    else none

/-- All tokens of a text; nothing when some part of it is no token. -/
def scan (cs : List Char) : Option (List Token) :=
  match cs with
  | [] => some []
  | c :: rest =>
    if isBlank c then scan rest
    else
      match next? (c :: rest) with
      | none => none
      | some (token, after) =>
        if _ : after.length < (c :: rest).length then (scan after).map (token :: ·) else none
termination_by cs.length
decreasing_by
  · exact Nat.lt_succ_self _
  · assumption

end Token

end Visibility
