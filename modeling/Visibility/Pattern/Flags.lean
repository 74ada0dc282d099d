import Visibility.Pattern.Basic
import Visibility.Text.Blank

set_option autoImplicit false
set_option relaxedAutoImplicit false

/-!
Flags of a pattern, which are set from outside or by a group `(?flags)`.
-/

namespace Visibility.Pattern

structure Flags where
  /-- Whether case does not matter, by the letter `i`. -/
  ignoreCase : Bool := false
  /-- Whether `^` and `$` match at line ends, by `m`. -/
  multiLine : Bool := false
  /-- Whether a dot matches a line feed, by `s`. -/
  dotAll : Bool := false
  /-- Whether blanks and comments are skipped, by `x`. -/
  skipBlanks : Bool := false
  /-- Whether lines may end with a carriage return, by `R`. -/
  carriageReturn : Bool := false
  /-- Whether a repetition is lazy unless it is marked, by `U`. -/
  lazyFirst : Bool := false
  /-- Whether classes, word edges and case are those of ASCII, by the absence of `u`. -/
  asciiOnly : Bool := false

namespace Flags

def set (flags : Flags) (letter : Char) (value : Bool) : Flags :=
  match letter with
  | 'i' => { flags with ignoreCase := value }
  | 'm' => { flags with multiLine := value }
  | 's' => { flags with dotAll := value }
  | 'x' => { flags with skipBlanks := value }
  | 'R' => { flags with carriageReturn := value }
  | 'U' => { flags with lazyFirst := value }
  | 'u' => { flags with asciiOnly := !value }
  | _ => flags

private def skipTrivia (inComment : Bool) : List Char → List Char
  | [] => []
  | c :: rest =>
    if inComment then skipTrivia (c ≠ '\n') rest
    else if Text.isBlank c then skipTrivia false rest
    else if c = '#' then skipTrivia true rest
    else c :: rest

/-- Skips what the flag `x` allows between two parts. -/
def skip (flags : Flags) (cs : List Char) : List Char :=
  if flags.skipBlanks then skipTrivia false cs else cs

/-- The next character after blanks, or after the mark of a comment and blanks. -/
def peek? (flags : Flags) (cs : List Char) : Option Char :=
  if flags.skipBlanks then
    match cs.dropWhile Text.isBlank with
    | '#' :: rest => (rest.dropWhile Text.isBlank).head?
    | rest => rest.head?
  else cs.head?

/-- A set with the case variants that count. -/
def fold (flags : Flags) (set : CharSet) : CharSet :=
  if !flags.ignoreCase then set
  else if flags.asciiOnly then set.asciiFolded else set.folded

/-- The characters that are not in a set, which is not possible in ASCII. -/
def complement? (flags : Flags) (set : CharSet) : Option CharSet :=
  if flags.asciiOnly then none else some set.complement

def negate? (flags : Flags) (negated : Bool) (set : CharSet) : Option CharSet :=
  if negated then flags.complement? set else some set

def char (flags : Flags) (c : Char) : Pattern :=
  ofSet (flags.fold (.single c))

def dot? (flags : Flags) : Option Pattern :=
  (flags.complement? (if flags.dotAll then .empty
    else if flags.carriageReturn then .ofChars ['\n', '\r']
    else .single '\n')).map ofSet

def caret (flags : Flags) : Assertion :=
  if !flags.multiLine then .textStart
  else if flags.carriageReturn then .anyLineStart else .lineStart

def dollar (flags : Flags) : Assertion :=
  if !flags.multiLine then .textEnd
  else if flags.carriageReturn then .anyLineEnd else .lineEnd

/-- Reads flags up to a colon or a closing parenthesis, which stays.  No flag may be given twice, and
one has to follow a minus sign.  The letters that were read are given back in reverse order. -/
def read? : List Char → Bool → List Char → Flags → Option (Flags × List Char × List Char)
  | _, _, [], _ => none
  | seen, negating, c :: rest, flags =>
    if c = ':' ∨ c = ')' then
      if seen.head? = some '-' then none else some (flags, seen, c :: rest)
    else if seen.contains c then none
    else if c = '-' then read? (c :: seen) true rest flags
    else if ['i', 'm', 's', 'U', 'u', 'R', 'x'].contains c then
      read? (c :: seen) negating rest (flags.set c !negating)
    else none

end Flags

end Visibility.Pattern
