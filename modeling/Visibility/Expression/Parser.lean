import Visibility.Expression.Token

set_option autoImplicit false
set_option relaxedAutoImplicit false

/-!
The grammar of security expressions.

```text
expression  := conjunction ("or" conjunction)*
conjunction := comparison ("and" comparison)*
comparison  := unary (operator unary)?
unary       := ("not" | "!" | "-") unary | postfix
postfix     := primary ("." name arguments?)*
primary     := literal | list | "(" expression ")" | name arguments?
arguments   := "(" (expression ("," expression)*)? ")"
list        := "[" (expression ("," expression)*)? ","? "]"
```

A chain of `or` or `and` leans to the left and comparisons do not chain.
-/

namespace Visibility

namespace Expr

def comparison? : List Token → Option (Comparison × List Token)
  | .comparison op :: rest => some (op, rest)
  | .isIn :: rest => some (.isIn, rest)
  | .not :: .isIn :: rest => some (.notIn, rest)
  | _ => none

mutual

/-- Each function reads one rule of the grammar from the start of some tokens and returns the rest;
the number bounds the depth of the calls. -/
def expression? : Nat → List Token → Option (Expr × List Token)
  | 0, _ => none
  | fuel + 1, ts => do
    let (first, ts) ← conjunction? fuel ts
    orTail? fuel first ts

def orTail? : Nat → Expr → List Token → Option (Expr × List Token)
  | 0, _, _ => none
  | fuel + 1, left, .or :: ts => do
    let (right, ts) ← conjunction? fuel ts
    orTail? fuel (.binary .or left right) ts
  | _ + 1, left, ts => some (left, ts)

def conjunction? : Nat → List Token → Option (Expr × List Token)
  | 0, _ => none
  | fuel + 1, ts => do
    let (first, ts) ← comparing? fuel ts
    andTail? fuel first ts

def andTail? : Nat → Expr → List Token → Option (Expr × List Token)
  | 0, _, _ => none
  | fuel + 1, left, .and :: ts => do
    let (right, ts) ← comparing? fuel ts
    andTail? fuel (.binary .and left right) ts
  | _ + 1, left, ts => some (left, ts)

def comparing? : Nat → List Token → Option (Expr × List Token)
  | 0, _ => none
  | fuel + 1, ts => do
    let (left, ts) ← unary? fuel ts
    match comparison? ts with
    | some (op, ts) =>
      let (right, ts) ← unary? fuel ts
      some (.binary (.compare op) left right, ts)
    | none => some (left, ts)

def unary? : Nat → List Token → Option (Expr × List Token)
  | 0, _ => none
  | fuel + 1, .not :: ts => do
    let (operand, ts) ← unary? fuel ts
    some (.unary .not operand, ts)
  | fuel + 1, .bang :: ts => do
    let (operand, ts) ← unary? fuel ts
    some (.unary .not operand, ts)
  | fuel + 1, .minus :: ts => do
    let (operand, ts) ← unary? fuel ts
    some (.unary .neg operand, ts)
  | fuel + 1, ts => do
    let (first, ts) ← primary? fuel ts
    postfixTail? fuel first ts

def postfixTail? : Nat → Expr → List Token → Option (Expr × List Token)
  | 0, _, _ => none
  | fuel + 1, target, .dot :: .name method :: .openParen :: ts => do
    let (args, ts) ← arguments? fuel ts
    postfixTail? fuel (.methodCall target method args) ts
  | fuel + 1, target, .dot :: .name name :: ts => postfixTail? fuel (.member target name) ts
  | _ + 1, target, ts => some (target, ts)

def primary? : Nat → List Token → Option (Expr × List Token)
  | 0, _ => none
  | _ + 1, .string text :: ts => some (.literal (.string text), ts)
  | _ + 1, .int value :: ts => some (.literal (.int value), ts)
  | _ + 1, .float value :: ts => some (.literal (.float value), ts)
  | _ + 1, .true :: ts => some (.literal (.bool true), ts)
  | _ + 1, .false :: ts => some (.literal (.bool false), ts)
  | _ + 1, .null :: ts => some (.literal .null, ts)
  | fuel + 1, .openBracket :: ts => do
    let (items, ts) ← items? fuel ts
    some (.list items, ts)
  | fuel + 1, .openParen :: ts => do
    let (inner, ts) ← expression? fuel ts
    match ts with
    | .closeParen :: ts => some (inner, ts)
    | _ => none
  | fuel + 1, .name function :: .openParen :: ts => do
    let (args, ts) ← arguments? fuel ts
    some (.call function args, ts)
  | _ + 1, .name name :: ts => some (.var name, ts)
  | _ + 1, _ => none

def arguments? : Nat → List Token → Option (List Expr × List Token)
  | 0, _ => none
  | _ + 1, .closeParen :: ts => some ([], ts)
  | fuel + 1, ts => argumentList? fuel ts

def argumentList? : Nat → List Token → Option (List Expr × List Token)
  | 0, _ => none
  | fuel + 1, ts => do
    let (first, ts) ← expression? fuel ts
    match ts with
    | .comma :: ts =>
      let (rest, ts) ← argumentList? fuel ts
      some (first :: rest, ts)
    | .closeParen :: ts => some ([first], ts)
    | _ => none

/-- Items of a list after its opening bracket; a comma may stand before the closing one. -/
def items? : Nat → List Token → Option (List Expr × List Token)
  | 0, _ => none
  | _ + 1, .closeBracket :: ts => some ([], ts)
  | _ + 1, .comma :: .closeBracket :: ts => some ([], ts)
  | fuel + 1, ts => itemList? fuel ts

def itemList? : Nat → List Token → Option (List Expr × List Token)
  | 0, _ => none
  | fuel + 1, ts => do
    let (first, ts) ← expression? fuel ts
    match ts with
    | .comma :: .closeBracket :: ts => some ([first], ts)
    | .comma :: ts =>
      let (rest, ts) ← itemList? fuel ts
      some (first :: rest, ts)
    | .closeBracket :: ts => some ([first], ts)
    | _ => none

end

/-- A depth of calls that no expression of `count` tokens exceeds. -/
def depthBound (count : Nat) : Nat :=
  8 * count + 8

/-- The expression that some tokens spell, all of them used. -/
def ofTokens? (ts : List Token) : Option Expr :=
  match expression? (depthBound ts.length) ts with
  | some (expr, []) => some expr
  | _ => none

def parse? (text : String) : Option Expr := do
  let ts ← Token.scan text.toList
  ofTokens? ts

end Expr

end Visibility
