import Visibility.Expression.Parser

set_option autoImplicit false
set_option relaxedAutoImplicit false

/-!
The grammar of security expressions as a relation.

`Reads phrase ts rest` holds when a rule of the grammar reads the tokens `ts` up to `rest`, with no
bound on the depth.  The main statements are that the bounded readers find exactly these readings,
so that some tokens spell at most one expression, and that a reading stays one where the tokens go on
at a stop such as a closing parenthesis.
-/

namespace Visibility

namespace Expr

/-- What a rule of the grammar gives; a tail goes on from what was read before it. -/
inductive Phrase where
  | expression (result : Expr)
  | orTail (left result : Expr)
  | conjunction (result : Expr)
  | andTail (left result : Expr)
  | comparing (result : Expr)
  | unary (result : Expr)
  | postfixTail (target result : Expr)
  | primary (result : Expr)
  | arguments (results : List Expr)
  | argumentList (results : List Expr)
  | items (results : List Expr)
  | itemList (results : List Expr)

/-- A rule reads tokens from the first list up to the second one.  A tail ends only where it cannot
go on, so that every reading is as long as it can be. -/
inductive Reads : Phrase → List Token → List Token → Prop
  | expression {first result : Expr} {ts mid rest : List Token} :
      Reads (.conjunction first) ts mid → Reads (.orTail first result) mid rest →
      Reads (.expression result) ts rest
  | orMore {left right result : Expr} {ts mid rest : List Token} :
      Reads (.conjunction right) ts mid → Reads (.orTail (.binary .or left right) result) mid rest →
      Reads (.orTail left result) (.or :: ts) rest
  | orEnd {left : Expr} {ts : List Token} :
      (∀ more, ts ≠ .or :: more) → Reads (.orTail left left) ts ts
  | conjunction {first result : Expr} {ts mid rest : List Token} :
      Reads (.comparing first) ts mid → Reads (.andTail first result) mid rest →
      Reads (.conjunction result) ts rest
  | andMore {left right result : Expr} {ts mid rest : List Token} :
      Reads (.comparing right) ts mid → Reads (.andTail (.binary .and left right) result) mid rest →
      Reads (.andTail left result) (.and :: ts) rest
  | andEnd {left : Expr} {ts : List Token} :
      (∀ more, ts ≠ .and :: more) → Reads (.andTail left left) ts ts
  | compared {left right : Expr} {op : Comparison} {ts mid after rest : List Token} :
      Reads (.unary left) ts mid → comparison? mid = some (op, after) →
      Reads (.unary right) after rest →
      Reads (.comparing (.binary (.compare op) left right)) ts rest
  | operand {result : Expr} {ts rest : List Token} :
      Reads (.unary result) ts rest → comparison? rest = none → Reads (.comparing result) ts rest
  | not {result : Expr} {ts rest : List Token} :
      Reads (.unary result) ts rest → Reads (.unary (.unary .not result)) (.not :: ts) rest
  | bang {result : Expr} {ts rest : List Token} :
      Reads (.unary result) ts rest → Reads (.unary (.unary .not result)) (.bang :: ts) rest
  | minus {result : Expr} {ts rest : List Token} :
      Reads (.unary result) ts rest → Reads (.unary (.unary .neg result)) (.minus :: ts) rest
  | postfixed {first result : Expr} {ts mid rest : List Token} :
      Reads (.primary first) ts mid → Reads (.postfixTail first result) mid rest →
      Reads (.unary result) ts rest
  | method {target result : Expr} {name : String} {args : List Expr} {ts mid rest : List Token} :
      Reads (.arguments args) ts mid →
      Reads (.postfixTail (.methodCall target name args) result) mid rest →
      Reads (.postfixTail target result) (.dot :: .name name :: .openParen :: ts) rest
  | member {target result : Expr} {name : String} {ts rest : List Token} :
      (∀ more, ts ≠ .openParen :: more) →
      Reads (.postfixTail (.member target name) result) ts rest →
      Reads (.postfixTail target result) (.dot :: .name name :: ts) rest
  | postfixEnd {target : Expr} {ts : List Token} :
      (∀ name more, ts ≠ .dot :: .name name :: more) → Reads (.postfixTail target target) ts ts
  | string {text : String} {ts : List Token} :
      Reads (.primary (.literal (.string text))) (.string text :: ts) ts
  | int {value : Nat} {ts : List Token} :
      Reads (.primary (.literal (.int value))) (.int value :: ts) ts
  | float {value : Float} {ts : List Token} :
      Reads (.primary (.literal (.float value))) (.float value :: ts) ts
  | true {ts : List Token} : Reads (.primary (.literal (.bool true))) (.true :: ts) ts
  | false {ts : List Token} : Reads (.primary (.literal (.bool false))) (.false :: ts) ts
  | null {ts : List Token} : Reads (.primary (.literal .null)) (.null :: ts) ts
  | list {results : List Expr} {ts rest : List Token} :
      Reads (.items results) ts rest → Reads (.primary (.list results)) (.openBracket :: ts) rest
  | parens {result : Expr} {ts rest : List Token} :
      Reads (.expression result) ts (.closeParen :: rest) →
      Reads (.primary result) (.openParen :: ts) rest
  | call {function : String} {args : List Expr} {ts rest : List Token} :
      Reads (.arguments args) ts rest →
      Reads (.primary (.call function args)) (.name function :: .openParen :: ts) rest
  | var {name : String} {ts : List Token} :
      (∀ more, ts ≠ .openParen :: more) → Reads (.primary (.var name)) (.name name :: ts) ts
  | noArguments {ts : List Token} : Reads (.arguments []) (.closeParen :: ts) ts
  | someArguments {results : List Expr} {ts rest : List Token} :
      Reads (.argumentList results) ts rest → Reads (.arguments results) ts rest
  | argument {first : Expr} {results : List Expr} {ts mid rest : List Token} :
      Reads (.expression first) ts (.comma :: mid) → Reads (.argumentList results) mid rest →
      Reads (.argumentList (first :: results)) ts rest
  | lastArgument {result : Expr} {ts rest : List Token} :
      Reads (.expression result) ts (.closeParen :: rest) → Reads (.argumentList [result]) ts rest
  | noItems {ts : List Token} : Reads (.items []) (.closeBracket :: ts) ts
  | onlyComma {ts : List Token} : Reads (.items []) (.comma :: .closeBracket :: ts) ts
  | someItems {results : List Expr} {ts rest : List Token} :
      Reads (.itemList results) ts rest → Reads (.items results) ts rest
  | item {first : Expr} {results : List Expr} {ts mid rest : List Token} :
      Reads (.expression first) ts (.comma :: mid) → Reads (.itemList results) mid rest →
      Reads (.itemList (first :: results)) ts rest
  | lastItem {result : Expr} {ts rest : List Token} :
      Reads (.expression result) ts (.closeBracket :: rest) → Reads (.itemList [result]) ts rest
  | lastItemComma {result : Expr} {ts rest : List Token} :
      Reads (.expression result) ts (.comma :: .closeBracket :: rest) →
      Reads (.itemList [result]) ts rest

/-- The reader of a phrase, with so much fuel, reads it up to `rest`. -/
def Phrase.FoundWith (fuel : Nat) (ts rest : List Token) : Phrase → Prop
  | expression result => expression? fuel ts = some (result, rest)
  | orTail left result => orTail? fuel left ts = some (result, rest)
  | conjunction result => conjunction? fuel ts = some (result, rest)
  | andTail left result => andTail? fuel left ts = some (result, rest)
  | comparing result => comparing? fuel ts = some (result, rest)
  | unary result => unary? fuel ts = some (result, rest)
  | postfixTail target result => postfixTail? fuel target ts = some (result, rest)
  | primary result => primary? fuel ts = some (result, rest)
  | arguments results => arguments? fuel ts = some (results, rest)
  | argumentList results => argumentList? fuel ts = some (results, rest)
  | items results => items? fuel ts = some (results, rest)
  | itemList results => itemList? fuel ts = some (results, rest)

section Sound

variable {fuel : Nat}
  (sound : ∀ less < fuel, ∀ (phrase : Phrase) (ts rest : List Token),
    phrase.FoundWith less ts rest → Reads phrase ts rest)
include sound

private theorem reads_of_expression? {ts rest : List Token} {result : Expr}
    (found : expression? fuel ts = some (result, rest)) : Reads (.expression result) ts rest := by
  revert found
  fun_cases expression? fuel ts with
  | case1 => intro found; contradiction
  | case2 fuel =>
    intro found
    simp only [Option.bind_eq_bind, Option.bind_eq_some_iff, Prod.exists] at found
    obtain ⟨first, mid, head, tail⟩ := found
    exact .expression (sound fuel (by omega) (.conjunction first) ts mid head)
      (sound fuel (by omega) (.orTail first result) mid rest tail)

private theorem reads_of_orTail? {left result : Expr} {ts rest : List Token}
    (found : orTail? fuel left ts = some (result, rest)) :
    Reads (.orTail left result) ts rest := by
  revert found
  fun_cases orTail? fuel left ts with
  | case1 => intro found; contradiction
  | case2 fuel _ ts =>
    intro found
    simp only [Option.bind_eq_bind, Option.bind_eq_some_iff, Prod.exists] at found
    obtain ⟨right, mid, head, tail⟩ := found
    exact .orMore (sound fuel (by omega) (.conjunction right) ts mid head)
      (sound fuel (by omega) (.orTail _ result) mid rest tail)
  | case3 _ _ _ ended =>
    rintro ⟨⟩
    exact .orEnd ended

private theorem reads_of_conjunction? {ts rest : List Token} {result : Expr}
    (found : conjunction? fuel ts = some (result, rest)) :
    Reads (.conjunction result) ts rest := by
  revert found
  fun_cases conjunction? fuel ts with
  | case1 => intro found; contradiction
  | case2 fuel =>
    intro found
    simp only [Option.bind_eq_bind, Option.bind_eq_some_iff, Prod.exists] at found
    obtain ⟨first, mid, head, tail⟩ := found
    exact .conjunction (sound fuel (by omega) (.comparing first) ts mid head)
      (sound fuel (by omega) (.andTail first result) mid rest tail)

private theorem reads_of_andTail? {left result : Expr} {ts rest : List Token}
    (found : andTail? fuel left ts = some (result, rest)) :
    Reads (.andTail left result) ts rest := by
  revert found
  fun_cases andTail? fuel left ts with
  | case1 => intro found; contradiction
  | case2 fuel _ ts =>
    intro found
    simp only [Option.bind_eq_bind, Option.bind_eq_some_iff, Prod.exists] at found
    obtain ⟨right, mid, head, tail⟩ := found
    exact .andMore (sound fuel (by omega) (.comparing right) ts mid head)
      (sound fuel (by omega) (.andTail _ result) mid rest tail)
  | case3 _ _ _ ended =>
    rintro ⟨⟩
    exact .andEnd ended

private theorem reads_of_comparing? {ts rest : List Token} {result : Expr}
    (found : comparing? fuel ts = some (result, rest)) : Reads (.comparing result) ts rest := by
  revert found
  fun_cases comparing? fuel ts with
  | case1 => intro found; contradiction
  | case2 fuel =>
    intro found
    simp only [Option.bind_eq_bind, Option.bind_eq_some_iff, Prod.exists] at found
    obtain ⟨left, mid, head, tail⟩ := found
    have first := sound fuel (by omega) (.unary left) ts mid head
    split at tail
    · next op after compared =>
      simp only [Option.bind_eq_some_iff, Prod.exists] at tail
      obtain ⟨right, _, second, same⟩ := tail
      cases same
      exact .compared first compared (sound fuel (by omega) (.unary right) after rest second)
    · next ended =>
      cases tail
      exact .operand first ended

private theorem reads_of_unary? {ts rest : List Token} {result : Expr}
    (found : unary? fuel ts = some (result, rest)) : Reads (.unary result) ts rest := by
  revert found
  fun_cases unary? fuel ts with
  | case1 => intro found; contradiction
  | case2 fuel ts =>
    intro found
    simp only [Option.bind_eq_bind, Option.bind_eq_some_iff, Prod.exists] at found
    obtain ⟨inner, _, head, same⟩ := found
    cases same
    exact .not (sound fuel (by omega) (.unary inner) ts rest head)
  | case3 fuel ts =>
    intro found
    simp only [Option.bind_eq_bind, Option.bind_eq_some_iff, Prod.exists] at found
    obtain ⟨inner, _, head, same⟩ := found
    cases same
    exact .bang (sound fuel (by omega) (.unary inner) ts rest head)
  | case4 fuel ts =>
    intro found
    simp only [Option.bind_eq_bind, Option.bind_eq_some_iff, Prod.exists] at found
    obtain ⟨inner, _, head, same⟩ := found
    cases same
    exact .minus (sound fuel (by omega) (.unary inner) ts rest head)
  | case5 fuel =>
    intro found
    simp only [Option.bind_eq_bind, Option.bind_eq_some_iff, Prod.exists] at found
    obtain ⟨first, mid, head, tail⟩ := found
    exact .postfixed (sound fuel (by omega) (.primary first) ts mid head)
      (sound fuel (by omega) (.postfixTail first result) mid rest tail)

private theorem reads_of_postfixTail? {target result : Expr} {ts rest : List Token}
    (found : postfixTail? fuel target ts = some (result, rest)) :
    Reads (.postfixTail target result) ts rest := by
  revert found
  fun_cases postfixTail? fuel target ts with
  | case1 => intro found; contradiction
  | case2 fuel _ name ts =>
    intro found
    simp only [Option.bind_eq_bind, Option.bind_eq_some_iff, Prod.exists] at found
    obtain ⟨args, mid, head, tail⟩ := found
    exact .method (sound fuel (by omega) (.arguments args) ts mid head)
      (sound fuel (by omega) (.postfixTail _ result) mid rest tail)
  | case3 fuel _ name ts closed =>
    exact fun found =>
      .member closed (sound fuel (by omega) (.postfixTail _ result) ts rest found)
  | case4 _ _ _ _ ended =>
    rintro ⟨⟩
    exact .postfixEnd ended

private theorem reads_of_primary? {ts rest : List Token} {result : Expr}
    (found : primary? fuel ts = some (result, rest)) : Reads (.primary result) ts rest := by
  revert found
  fun_cases primary? fuel ts with
  | case1 => intro found; contradiction
  | case2 => rintro ⟨⟩; exact .string
  | case3 => rintro ⟨⟩; exact .int
  | case4 => rintro ⟨⟩; exact .float
  | case5 => rintro ⟨⟩; exact .true
  | case6 => rintro ⟨⟩; exact .false
  | case7 => rintro ⟨⟩; exact .null
  | case8 fuel ts =>
    intro found
    simp only [Option.bind_eq_bind, Option.bind_eq_some_iff, Prod.exists] at found
    obtain ⟨results, _, head, same⟩ := found
    cases same
    exact .list (sound fuel (by omega) (.items results) ts rest head)
  | case9 fuel ts =>
    intro found
    simp only [Option.bind_eq_bind, Option.bind_eq_some_iff, Prod.exists] at found
    obtain ⟨inner, mid, head, tail⟩ := found
    split at tail
    · cases tail
      exact .parens (sound fuel (by omega) (.expression result) ts _ head)
    · contradiction
  | case10 fuel name ts =>
    intro found
    simp only [Option.bind_eq_bind, Option.bind_eq_some_iff, Prod.exists] at found
    obtain ⟨args, _, head, same⟩ := found
    cases same
    exact .call (sound fuel (by omega) (.arguments args) ts rest head)
  | case11 _ name ts closed =>
    rintro ⟨⟩
    exact .var closed
  | case12 => intro found; contradiction

private theorem reads_of_arguments? {ts rest : List Token} {results : List Expr}
    (found : arguments? fuel ts = some (results, rest)) : Reads (.arguments results) ts rest := by
  revert found
  fun_cases arguments? fuel ts with
  | case1 => intro found; contradiction
  | case2 => rintro ⟨⟩; exact .noArguments
  | case3 fuel =>
    exact fun found =>
      .someArguments (sound fuel (by omega) (.argumentList results) ts rest found)

private theorem reads_of_argumentList? {ts rest : List Token} {results : List Expr}
    (found : argumentList? fuel ts = some (results, rest)) :
    Reads (.argumentList results) ts rest := by
  revert found
  fun_cases argumentList? fuel ts with
  | case1 => intro found; contradiction
  | case2 fuel =>
    intro found
    simp only [Option.bind_eq_bind, Option.bind_eq_some_iff, Prod.exists] at found
    obtain ⟨first, mid, head, tail⟩ := found
    have one := sound fuel (by omega) (.expression first) ts mid head
    split at tail
    · next after =>
      simp only [Option.bind_eq_some_iff, Prod.exists] at tail
      obtain ⟨others, _, more, same⟩ := tail
      cases same
      exact .argument one (sound fuel (by omega) (.argumentList others) after rest more)
    · cases tail
      exact .lastArgument one
    · contradiction

private theorem reads_of_items? {ts rest : List Token} {results : List Expr}
    (found : items? fuel ts = some (results, rest)) : Reads (.items results) ts rest := by
  revert found
  fun_cases items? fuel ts with
  | case1 => intro found; contradiction
  | case2 => rintro ⟨⟩; exact .noItems
  | case3 => rintro ⟨⟩; exact .onlyComma
  | case4 fuel =>
    exact fun found => .someItems (sound fuel (by omega) (.itemList results) ts rest found)

private theorem reads_of_itemList? {ts rest : List Token} {results : List Expr}
    (found : itemList? fuel ts = some (results, rest)) : Reads (.itemList results) ts rest := by
  revert found
  fun_cases itemList? fuel ts with
  | case1 => intro found; contradiction
  | case2 fuel =>
    intro found
    simp only [Option.bind_eq_bind, Option.bind_eq_some_iff, Prod.exists] at found
    obtain ⟨first, mid, head, tail⟩ := found
    have one := sound fuel (by omega) (.expression first) ts mid head
    split at tail
    · cases tail
      exact .lastItemComma one
    · next after _ =>
      simp only [Option.bind_eq_some_iff, Prod.exists] at tail
      obtain ⟨others, _, more, same⟩ := tail
      cases same
      exact .item one (sound fuel (by omega) (.itemList others) after rest more)
    · cases tail
      exact .lastItem one
    · contradiction

end Sound

theorem Phrase.FoundWith.reads {fuel : Nat} {phrase : Phrase} {ts rest : List Token}
    (found : phrase.FoundWith fuel ts rest) : Reads phrase ts rest := by
  induction fuel using Nat.strongRecOn generalizing phrase ts rest with
  | ind fuel ih =>
    have sound := fun less below phrase ts rest => @ih less below phrase ts rest
    cases phrase with
    | expression => exact reads_of_expression? sound found
    | orTail => exact reads_of_orTail? sound found
    | conjunction => exact reads_of_conjunction? sound found
    | andTail => exact reads_of_andTail? sound found
    | comparing => exact reads_of_comparing? sound found
    | unary => exact reads_of_unary? sound found
    | postfixTail => exact reads_of_postfixTail? sound found
    | primary => exact reads_of_primary? sound found
    | arguments => exact reads_of_arguments? sound found
    | argumentList => exact reads_of_argumentList? sound found
    | items => exact reads_of_items? sound found
    | itemList => exact reads_of_itemList? sound found

def opensOperand : Token → Bool
  | .name _ | .string _ | .int _ | .float _ | .true | .false | .null => Bool.true
  | .not | .bang | .minus | .openParen | .openBracket => Bool.true
  | _ => Bool.false

namespace Phrase

def isOperand : Phrase → Bool
  | orTail _ _ | andTail _ _ | postfixTail _ _ | arguments _ | items _ => Bool.false
  | _ => Bool.true

def leastTokens : Phrase → Nat
  | orTail _ _ | andTail _ _ | postfixTail _ _ => 0
  | _ => 1

/-- The depth of calls that a phrase needs beyond eight for each token. -/
def slack : Phrase → Nat
  | expression _ => 4
  | conjunction _ => 3
  | comparing _ => 2
  | primary _ | argumentList _ | itemList _ => 0
  | _ => 1

end Phrase

theorem length_lt_of_comparison? {ts rest : List Token} {op : Comparison}
    (found : comparison? ts = some (op, rest)) : rest.length < ts.length := by
  unfold comparison? at found
  split at found <;> cases found <;> simp only [List.length_cons] <;> omega

namespace Reads

variable {phrase : Phrase} {ts rest : List Token}

theorem length_le (reads : Reads phrase ts rest) :
    rest.length + phrase.leastTokens ≤ ts.length := by
  induction reads with
  | compared _ found _ first second =>
    have := length_lt_of_comparison? found
    simp only [Phrase.leastTokens] at first second ⊢
    omega
  | _ =>
    simp only [Phrase.leastTokens, List.length_cons] at *
    omega

theorem exists_opensOperand (reads : Reads phrase ts rest) (operand : phrase.isOperand) :
    ∃ first more, ts = first :: more ∧ opensOperand first := by
  induction reads with
  | orMore | orEnd | andMore | andEnd | method | member | postfixEnd | noArguments
  | someArguments | noItems | onlyComma | someItems => cases operand
  | not | bang | minus | string | int | float | «true» | «false» | null | list | parens | call
  | var => exact ⟨_, _, rfl, rfl⟩
  | expression _ _ ih | conjunction _ _ ih | compared _ _ _ ih | operand _ _ ih
  | postfixed _ _ ih | argument _ _ ih | lastArgument _ ih | item _ _ ih | lastItem _ ih
  | lastItemComma _ ih => exact ih rfl

end Reads

section Complete

variable {fuel : Nat}
  (complete : ∀ (phrase : Phrase) (ts rest : List Token), Reads phrase ts rest →
    8 * ts.length + phrase.slack ≤ fuel + 8 * rest.length → phrase.FoundWith fuel ts rest)
  {ts rest : List Token}
include complete

private theorem expression?_of_reads {result : Expr} (reads : Reads (.expression result) ts rest)
    (enough : 8 * ts.length + 4 ≤ fuel + 1 + 8 * rest.length) :
    expression? (fuel + 1) ts = some (result, rest) := by
  cases reads with
  | @expression first _ _ mid _ head tail =>
    have atHead := head.length_le
    have atTail := tail.length_le
    simp only [Phrase.leastTokens] at atHead atTail
    have one : conjunction? fuel ts = some (first, mid) :=
      complete _ _ _ head (by simp only [Phrase.slack]; omega)
    have two : orTail? fuel first mid = some (result, rest) :=
      complete _ _ _ tail (by simp only [Phrase.slack]; omega)
    simp [expression?, one, two]

private theorem orTail?_of_reads {left result : Expr} (reads : Reads (.orTail left result) ts rest)
    (enough : 8 * ts.length + 1 ≤ fuel + 1 + 8 * rest.length) :
    orTail? (fuel + 1) left ts = some (result, rest) := by
  cases reads with
  | @orMore _ right _ ts mid _ head tail =>
    have atHead := head.length_le
    have atTail := tail.length_le
    simp only [Phrase.leastTokens, List.length_cons] at atHead atTail enough
    have one : conjunction? fuel ts = some (right, mid) :=
      complete _ _ _ head (by simp only [Phrase.slack]; omega)
    have two : orTail? fuel (.binary .or left right) mid = some (result, rest) :=
      complete _ _ _ tail (by simp only [Phrase.slack]; omega)
    simp [orTail?, one, two]
  | orEnd ended => rw [orTail?.eq_3 _ _ _ ended]

private theorem conjunction?_of_reads {result : Expr} (reads : Reads (.conjunction result) ts rest)
    (enough : 8 * ts.length + 3 ≤ fuel + 1 + 8 * rest.length) :
    conjunction? (fuel + 1) ts = some (result, rest) := by
  cases reads with
  | @conjunction first _ _ mid _ head tail =>
    have atHead := head.length_le
    have atTail := tail.length_le
    simp only [Phrase.leastTokens] at atHead atTail
    have one : comparing? fuel ts = some (first, mid) :=
      complete _ _ _ head (by simp only [Phrase.slack]; omega)
    have two : andTail? fuel first mid = some (result, rest) :=
      complete _ _ _ tail (by simp only [Phrase.slack]; omega)
    simp [conjunction?, one, two]

private theorem andTail?_of_reads {left result : Expr}
    (reads : Reads (.andTail left result) ts rest)
    (enough : 8 * ts.length + 1 ≤ fuel + 1 + 8 * rest.length) :
    andTail? (fuel + 1) left ts = some (result, rest) := by
  cases reads with
  | @andMore _ right _ ts mid _ head tail =>
    have atHead := head.length_le
    have atTail := tail.length_le
    simp only [Phrase.leastTokens, List.length_cons] at atHead atTail enough
    have one : comparing? fuel ts = some (right, mid) :=
      complete _ _ _ head (by simp only [Phrase.slack]; omega)
    have two : andTail? fuel (.binary .and left right) mid = some (result, rest) :=
      complete _ _ _ tail (by simp only [Phrase.slack]; omega)
    simp [andTail?, one, two]
  | andEnd ended => rw [andTail?.eq_3 _ _ _ ended]

private theorem comparing?_of_reads {result : Expr} (reads : Reads (.comparing result) ts rest)
    (enough : 8 * ts.length + 2 ≤ fuel + 1 + 8 * rest.length) :
    comparing? (fuel + 1) ts = some (result, rest) := by
  cases reads with
  | @compared left right op _ mid after _ head compared tail =>
    have atHead := head.length_le
    have atTail := tail.length_le
    have atOperator := length_lt_of_comparison? compared
    simp only [Phrase.leastTokens] at atHead atTail
    have one : unary? fuel ts = some (left, mid) :=
      complete _ _ _ head (by simp only [Phrase.slack]; omega)
    have two : unary? fuel after = some (right, rest) :=
      complete _ _ _ tail (by simp only [Phrase.slack]; omega)
    simp [comparing?, one, two, compared]
  | operand head ended =>
    have one : unary? fuel ts = some (result, rest) :=
      complete _ _ _ head (by simp only [Phrase.slack]; omega)
    simp [comparing?, one, ended]

private theorem unary?_of_reads {result : Expr} (reads : Reads (.unary result) ts rest)
    (enough : 8 * ts.length + 1 ≤ fuel + 1 + 8 * rest.length) :
    unary? (fuel + 1) ts = some (result, rest) := by
  cases reads with
  | @not inner ts _ head =>
    have one : unary? fuel ts = some (inner, rest) :=
      complete _ _ _ head (by simp only [Phrase.slack, List.length_cons] at *; omega)
    simp [unary?, one]
  | @bang inner ts _ head =>
    have one : unary? fuel ts = some (inner, rest) :=
      complete _ _ _ head (by simp only [Phrase.slack, List.length_cons] at *; omega)
    simp [unary?, one]
  | @minus inner ts _ head =>
    have one : unary? fuel ts = some (inner, rest) :=
      complete _ _ _ head (by simp only [Phrase.slack, List.length_cons] at *; omega)
    simp [unary?, one]
  | @postfixed first _ _ mid _ head tail =>
    have atHead := head.length_le
    have atTail := tail.length_le
    simp only [Phrase.leastTokens] at atHead atTail
    have one : primary? fuel ts = some (first, mid) :=
      complete _ _ _ head (by simp only [Phrase.slack]; omega)
    have two : postfixTail? fuel first mid = some (result, rest) :=
      complete _ _ _ tail (by simp only [Phrase.slack]; omega)
    rw [unary?.eq_5]
    · simp [one, two]
    all_goals
      rintro more rfl
      cases head

private theorem postfixTail?_of_reads {target result : Expr}
    (reads : Reads (.postfixTail target result) ts rest)
    (enough : 8 * ts.length + 1 ≤ fuel + 1 + 8 * rest.length) :
    postfixTail? (fuel + 1) target ts = some (result, rest) := by
  cases reads with
  | @method _ _ name args ts mid _ head tail =>
    have atHead := head.length_le
    have atTail := tail.length_le
    simp only [Phrase.leastTokens, List.length_cons] at atHead atTail enough
    have one : arguments? fuel ts = some (args, mid) :=
      complete _ _ _ head (by simp only [Phrase.slack]; omega)
    have two : postfixTail? fuel (.methodCall target name args) mid = some (result, rest) :=
      complete _ _ _ tail (by simp only [Phrase.slack]; omega)
    simp [postfixTail?, one, two]
  | @member _ _ name ts _ closed tail =>
    have two : postfixTail? fuel (.member target name) ts = some (result, rest) :=
      complete _ _ _ tail (by simp only [Phrase.slack, List.length_cons] at *; omega)
    rw [postfixTail?.eq_3 _ _ _ _ closed, two]
  | postfixEnd ended => 
    rw [postfixTail?.eq_4]
    · exact fun name more => ended name (.openParen :: more)
    · exact ended

private theorem primary?_of_reads {result : Expr} (reads : Reads (.primary result) ts rest)
    (enough : 8 * ts.length ≤ fuel + 1 + 8 * rest.length) :
    primary? (fuel + 1) ts = some (result, rest) := by
  cases reads with
  | string | int | float | «true» | «false» | null => rfl
  | @list results ts _ head =>
    have one : items? fuel ts = some (results, rest) :=
      complete _ _ _ head (by simp only [Phrase.slack, List.length_cons] at *; omega)
    simp [primary?, one]
  | @parens _ ts _ head =>
    have one : expression? fuel ts = some (result, .closeParen :: rest) :=
      complete _ _ _ head (by simp only [Phrase.slack, List.length_cons] at *; omega)
    simp [primary?, one]
  | @call function args ts _ head =>
    have one : arguments? fuel ts = some (args, rest) :=
      complete _ _ _ head (by simp only [Phrase.slack, List.length_cons] at *; omega)
    simp [primary?, one]
  | var closed => rw [primary?.eq_11 _ _ _ closed]

private theorem arguments?_of_reads {results : List Expr}
    (reads : Reads (.arguments results) ts rest)
    (enough : 8 * ts.length + 1 ≤ fuel + 1 + 8 * rest.length) :
    arguments? (fuel + 1) ts = some (results, rest) := by
  cases reads with
  | noArguments => rfl
  | someArguments list =>
    obtain ⟨first, more, rfl, opens⟩ := list.exists_opensOperand rfl
    rw [arguments?.eq_3]
    · exact complete _ _ _ list (by simp only [Phrase.slack]; omega)
    · rintro _ ⟨⟩
      cases opens

private theorem argumentList?_of_reads {results : List Expr}
    (reads : Reads (.argumentList results) ts rest)
    (enough : 8 * ts.length ≤ fuel + 1 + 8 * rest.length) :
    argumentList? (fuel + 1) ts = some (results, rest) := by
  cases reads with
  | @argument first others _ mid _ head tail =>
    have atHead := head.length_le
    have atTail := tail.length_le
    simp only [Phrase.leastTokens, List.length_cons] at atHead atTail
    have one : expression? fuel ts = some (first, .comma :: mid) :=
      complete _ _ _ head (by simp only [Phrase.slack, List.length_cons]; omega)
    have two : argumentList? fuel mid = some (others, rest) :=
      complete _ _ _ tail (by simp only [Phrase.slack]; omega)
    simp [argumentList?, one, two]
  | @lastArgument result _ _ head =>
    have one : expression? fuel ts = some (result, .closeParen :: rest) :=
      complete _ _ _ head (by simp only [Phrase.slack, List.length_cons]; omega)
    simp [argumentList?, one]

private theorem items?_of_reads {results : List Expr} (reads : Reads (.items results) ts rest)
    (enough : 8 * ts.length + 1 ≤ fuel + 1 + 8 * rest.length) :
    items? (fuel + 1) ts = some (results, rest) := by
  cases reads with
  | noItems | onlyComma => rfl
  | someItems list =>
    obtain ⟨first, more, rfl, opens⟩ := list.exists_opensOperand rfl
    rw [items?.eq_4]
    · exact complete _ _ _ list (by simp only [Phrase.slack]; omega)
    all_goals
      rintro _ ⟨⟩
      cases opens

private theorem itemList?_of_reads {results : List Expr}
    (reads : Reads (.itemList results) ts rest)
    (enough : 8 * ts.length ≤ fuel + 1 + 8 * rest.length) :
    itemList? (fuel + 1) ts = some (results, rest) := by
  cases reads with
  | @item first others _ mid _ head tail =>
    have atHead := head.length_le
    have atTail := tail.length_le
    simp only [Phrase.leastTokens, List.length_cons] at atHead atTail
    have one : expression? fuel ts = some (first, .comma :: mid) :=
      complete _ _ _ head (by simp only [Phrase.slack, List.length_cons]; omega)
    have two : itemList? fuel mid = some (others, rest) :=
      complete _ _ _ tail (by simp only [Phrase.slack]; omega)
    obtain ⟨next, more, rfl, opens⟩ := tail.exists_opensOperand rfl
    simp only [itemList?, one, Option.bind_eq_bind, Option.bind_some]
    split
    · next same =>
      -- an item follows, so the comma is not the one before the closing bracket
      cases same
      cases opens
    · next same =>
      cases same
      simp [two]
    · next same => cases same
    · next other _ => exact absurd rfl (other _)
  | @lastItem result _ _ head =>
    have one : expression? fuel ts = some (result, .closeBracket :: rest) :=
      complete _ _ _ head (by simp only [Phrase.slack, List.length_cons]; omega)
    simp [itemList?, one]
  | @lastItemComma result _ _ head =>
    have one : expression? fuel ts = some (result, .comma :: .closeBracket :: rest) :=
      complete _ _ _ head (by simp only [Phrase.slack, List.length_cons]; omega)
    simp [itemList?, one]

end Complete

theorem Reads.foundWith {fuel : Nat} {phrase : Phrase} {ts rest : List Token}
    (reads : Reads phrase ts rest)
    (enough : 8 * ts.length + phrase.slack ≤ fuel + 8 * rest.length) :
    phrase.FoundWith fuel ts rest := by
  induction fuel generalizing phrase ts rest with
  | zero =>
    have consumed := reads.length_le
    cases phrase <;> simp only [Phrase.slack, Phrase.leastTokens] at enough consumed <;> omega
  | succ fuel ih =>
    have complete := fun phrase ts rest reads => @ih phrase ts rest reads
    cases phrase with
    | expression => exact expression?_of_reads complete reads enough
    | orTail => exact orTail?_of_reads complete reads enough
    | conjunction => exact conjunction?_of_reads complete reads enough
    | andTail => exact andTail?_of_reads complete reads enough
    | comparing => exact comparing?_of_reads complete reads enough
    | unary => exact unary?_of_reads complete reads enough
    | postfixTail => exact postfixTail?_of_reads complete reads enough
    | primary => exact primary?_of_reads complete reads enough
    | arguments => exact arguments?_of_reads complete reads enough
    | argumentList => exact argumentList?_of_reads complete reads enough
    | items => exact items?_of_reads complete reads enough
    | itemList => exact itemList?_of_reads complete reads enough

/-- Tokens spell an expression exactly when the grammar reads all of them as it. -/
theorem ofTokens?_eq_some_iff {ts : List Token} {expr : Expr} :
    ofTokens? ts = some expr ↔ Reads (.expression expr) ts [] := by
  constructor
  · intro spelled
    unfold ofTokens? at spelled
    split at spelled
    · next found =>
      cases spelled
      have whole : (Phrase.expression expr).FoundWith (depthBound ts.length) ts [] := found
      exact whole.reads
    · contradiction
  · intro reads
    have found : expression? (depthBound ts.length) ts = some (expr, []) :=
      reads.foundWith (by simp only [Phrase.slack, depthBound]; omega)
    rw [ofTokens?, found]

theorem Reads.unique {α : Type} {phrase : α → Phrase}
    {reader : Nat → List Token → Option (α × List Token)}
    (read : ∀ (fuel : Nat) (ts rest : List Token) (result : α),
      (phrase result).FoundWith fuel ts rest ↔ reader fuel ts = some (result, rest))
    {first second : α} {ts rest other : List Token}
    (one : Reads (phrase first) ts rest) (two : Reads (phrase second) ts other) :
    first = second ∧ rest = other := by
  let fuel := 8 * ts.length + (phrase first).slack + (phrase second).slack
  have found := (read fuel ts rest first).mp (one.foundWith (by omega))
  have again := (read fuel ts other second).mp (two.foundWith (by omega))
  rw [found] at again
  cases again
  exact ⟨rfl, rfl⟩

theorem Reads.comparing_unique {first second : Expr} {ts rest other : List Token}
    (one : Reads (.comparing first) ts rest) (two : Reads (.comparing second) ts other) :
    first = second ∧ rest = other :=
  Reads.unique (fun _ _ _ _ => Iff.rfl) one two

/-- Whether a token ends every phrase before it. -/
def isStop : Token → Bool
  | .closeParen | .closeBracket | .comma => Bool.true
  | _ => Bool.false

private theorem comparison?_append_some {ts rest : List Token} {op : Comparison}
    (found : comparison? ts = some (op, rest)) (later : List Token) :
    comparison? (ts ++ later) = some (op, rest ++ later) := by
  unfold comparison? at found
  split at found <;> cases found <;> rfl

section Stop

variable {stop : Token} (stops : isStop stop)
include stops

private theorem append_stop_ne {ts : List Token} {token : Token} (other : isStop token = Bool.false)
    (absent : ∀ more, ts ≠ token :: more) (later more : List Token) :
    ts ++ stop :: later ≠ token :: more := by
  intro same
  cases ts with
  | nil =>
    simp only [List.nil_append, List.cons.injEq] at same
    rw [← same.1, stops] at other
    contradiction
  | cons first rest =>
    simp only [List.cons_append, List.cons.injEq] at same
    exact absent rest (by rw [same.1])

private theorem append_stop_ne_member {ts : List Token}
    (absent : ∀ name more, ts ≠ .dot :: .name name :: more) (later : List Token)
    (name : String) (more : List Token) : ts ++ stop :: later ≠ .dot :: .name name :: more := by
  intro same
  rcases ts with _ | ⟨first, _ | ⟨second, rest⟩⟩
  · simp only [List.nil_append, List.cons.injEq] at same
    rw [same.1] at stops
    contradiction
  · simp only [List.cons_append, List.nil_append, List.cons.injEq] at same
    rw [same.2.1] at stops
    contradiction
  · simp only [List.cons_append, List.cons.injEq] at same
    exact absent name rest (by rw [same.1, same.2.1])

private theorem comparison?_append_none {ts : List Token} (ended : comparison? ts = none)
    (later : List Token) : comparison? (ts ++ stop :: later) = none := by
  rcases ts with _ | ⟨first, _ | ⟨second, rest⟩⟩
  · cases stop <;> first | rfl | contradiction
  · cases first <;> cases stop <;> first | rfl | contradiction
  · cases first <;> cases second <;> first | rfl | contradiction

/-- What a rule reads it reads as well where the tokens go on at a stop. -/
theorem Reads.append_stop {phrase : Phrase} {ts rest : List Token} (reads : Reads phrase ts rest)
    (later : List Token) : Reads phrase (ts ++ stop :: later) (rest ++ stop :: later) := by
  induction reads with
  | expression _ _ head tail => exact .expression head tail
  | orMore _ _ head tail => exact .orMore head tail
  | orEnd ended => exact .orEnd (append_stop_ne stops rfl ended later)
  | conjunction _ _ head tail => exact .conjunction head tail
  | andMore _ _ head tail => exact .andMore head tail
  | andEnd ended => exact .andEnd (append_stop_ne stops rfl ended later)
  | compared _ found _ left right =>
    exact .compared left (comparison?_append_some found _) right
  | operand _ ended ih => exact .operand ih (comparison?_append_none stops ended later)
  | not _ ih => exact .not ih
  | bang _ ih => exact .bang ih
  | minus _ ih => exact .minus ih
  | postfixed _ _ head tail => exact .postfixed head tail
  | method _ _ args tail => exact .method args tail
  | member closed _ tail => exact .member (append_stop_ne stops rfl closed later) tail
  | postfixEnd ended => exact .postfixEnd (append_stop_ne_member stops ended later)
  | string => exact .string
  | int => exact .int
  | float => exact .float
  | «true» => exact .true
  | «false» => exact .false
  | null => exact .null
  | list _ ih => exact .list ih
  | parens _ ih => exact .parens ih
  | call _ ih => exact .call ih
  | var closed => exact .var (append_stop_ne stops rfl closed later)
  | noArguments => exact .noArguments
  | someArguments _ ih => exact .someArguments ih
  | argument _ _ first others => exact .argument first others
  | lastArgument _ ih => exact .lastArgument ih
  | noItems => exact .noItems
  | onlyComma => exact .onlyComma
  | someItems _ ih => exact .someItems ih
  | item _ _ first others => exact .item first others
  | lastItem _ ih => exact .lastItem ih
  | lastItemComma _ ih => exact .lastItemComma ih

end Stop

end Expr

end Visibility
