import Visibility.Proofs.Expression.Grammar
import Visibility.Proofs.Expression.Writing

set_option autoImplicit false
set_option relaxedAutoImplicit false

/-!
Expressions printed as texts.

An operand is enclosed in parentheses where the grammar would not read it otherwise, and nowhere
else.  The main statements are that the tokens of an expression are read as that expression, and that
no other tokens which are read so open fewer parentheses.
-/

namespace Visibility

namespace Expr

/-- The rules that an operand is read by, from the loosest to the tightest one. -/
inductive Level where
  | disjunction
  | conjunction
  | comparison
  | unary
  | postfixed
deriving DecidableEq, Repr

def Level.rank : Level → Nat
  | disjunction => 0
  | conjunction => 1
  | comparison => 2
  | unary => 3
  | postfixed => 4

def level : Expr → Level
  | binary .or _ _ => .disjunction
  | binary .and _ _ => .conjunction
  | binary (.compare _) _ _ => .comparison
  | unary _ _ => .unary
  | _ => .postfixed

end Expr

open Visibility.Expr (Level)

/-- The rule that reads the left operand; a chain leans to the left. -/
def BinaryOp.leftLevel : BinaryOp → Level
  | or => .disjunction
  | and => .conjunction
  | compare _ => .unary

def BinaryOp.rightLevel : BinaryOp → Level
  | or => .conjunction
  | and => .comparison
  | compare _ => .unary

def Comparison.tokens : Comparison → List Token
  | isIn => [.isIn]
  | notIn => [.not, .isIn]
  | op => [.comparison op]

def BinaryOp.tokens : BinaryOp → List Token
  | or => [.or]
  | and => [.and]
  | compare op => op.tokens

def UnaryOp.token : UnaryOp → Token
  | not => .not
  | neg => .minus

def Literal.token : Literal → Token
  | null => .null
  | bool true => .true
  | bool false => .false
  | int value => .int value
  | float value => .float value
  | string value => .string value

namespace Expr

def enclosed (least : Level) (operand : Expr) (ts : List Token) : List Token :=
  if least.rank ≤ operand.level.rank then ts else .openParen :: (ts ++ [.closeParen])

mutual

def tokens : Expr → List Token
  | literal value => [value.token]
  | list items => .openBracket :: (tokensAll items ++ [.closeBracket])
  | var name => [.name name]
  | member target name => enclosed .postfixed target (tokens target) ++ [.dot, .name name]
  | methodCall target method args =>
    enclosed .postfixed target (tokens target) ++
      .dot :: .name method :: .openParen :: (tokensAll args ++ [.closeParen])
  | call function args => .name function :: .openParen :: (tokensAll args ++ [.closeParen])
  | unary op operand => op.token :: enclosed .unary operand (tokens operand)
  | binary op left right =>
    enclosed op.leftLevel left (tokens left) ++
      (op.tokens ++ enclosed op.rightLevel right (tokens right))

def tokensAll : List Expr → List Token
  | [] => []
  | first :: rest => tokens first ++ tokensMore rest

def tokensMore : List Expr → List Token
  | [] => []
  | first :: rest => .comma :: (tokens first ++ tokensMore rest)

end

/-- The text of an expression, with its strings between the given quotes. -/
def print (quote : Quote) (expr : Expr) : String :=
  String.ofList (Token.layout quote expr.tokens)

end Expr

/-- How tightly a token that stands behind an operand goes on with it. -/
def Token.grip : Token → Nat
  | openParen => 5
  | dot => 4
  | comparison _ | isIn | not => 3
  | and => 2
  | or => 1
  | _ => 0

namespace Expr

/-- Whether tokens do not go on more tightly than that. -/
def Loose (most : Nat) (ts : List Token) : Prop :=
  ∀ token ∈ ts.head?, token.grip ≤ most

/-- Whether tokens are read as an expression by a rule, where what follows is not bound more
tightly. -/
def StandsFor (ts : List Token) (expr : Expr) : Level → Prop
  | .disjunction => ∀ (mid rest : List Token) (result : Expr), Loose 1 mid →
      Reads (.orTail expr result) mid rest → Reads (.expression result) (ts ++ mid) rest
  | .conjunction => ∀ (mid rest : List Token) (result : Expr), Loose 2 mid →
      Reads (.andTail expr result) mid rest → Reads (.conjunction result) (ts ++ mid) rest
  | .comparison => ∀ mid : List Token, Loose 2 mid → Reads (.comparing expr) (ts ++ mid) mid
  | .unary => ∀ mid : List Token, Loose 3 mid → Reads (.unary expr) (ts ++ mid) mid
  | .postfixed => ∀ (mid rest : List Token) (result : Expr), Loose 4 mid →
      Reads (.postfixTail expr result) mid rest → Reads (.unary result) (ts ++ mid) rest

theorem loose_cons {most : Nat} {token : Token} (loose : token.grip ≤ most) (ts : List Token) :
    Loose most (token :: ts) := by
  rintro _ ⟨⟩
  exact loose

section Loose

variable {most : Nat} {mid : List Token} (loose : Loose most mid)
include loose

theorem Loose.mono {more : Nat} (le : most ≤ more) : Loose more mid :=
  fun token present => Nat.le_trans (loose token present) le

theorem Loose.ne (token : Token) (tight : most < token.grip) (more : List Token) :
    mid ≠ token :: more := by
  rintro rfl
  exact absurd (loose token rfl) (by omega)

theorem Loose.comparison?_eq_none (tight : most < 3) : comparison? mid = none := by
  unfold comparison?
  split
  · exact absurd rfl (loose.ne (.comparison _) tight _)
  · exact absurd rfl (loose.ne .isIn tight _)
  · exact absurd rfl (loose.ne .not tight _)
  · rfl

end Loose

namespace StandsFor

variable {ts : List Token} {expr : Expr}

theorem asUnary {level : Level} (stands : StandsFor ts expr level) (tight : 3 ≤ level.rank) :
    StandsFor ts expr .unary := by
  cases level with
  | unary => exact stands
  | postfixed =>
    intro mid loose
    exact stands mid mid expr (loose.mono (by omega))
      (.postfixEnd fun name more => loose.ne .dot (by decide) (.name name :: more))
  | _ => contradiction

theorem asComparison {level : Level} (stands : StandsFor ts expr level) (tight : 2 ≤ level.rank) :
    StandsFor ts expr .comparison := by
  have ofUnary (stands : StandsFor ts expr .unary) : StandsFor ts expr .comparison :=
    fun mid loose =>
      .operand (stands mid (loose.mono (by omega))) (loose.comparison?_eq_none (by omega))
  cases level with
  | comparison => exact stands
  | unary | postfixed => exact ofUnary (stands.asUnary (by decide))
  | _ => contradiction

theorem asConjunction {level : Level} (stands : StandsFor ts expr level) (tight : 1 ≤ level.rank) :
    StandsFor ts expr .conjunction := by
  have ofComparison (stands : StandsFor ts expr .comparison) : StandsFor ts expr .conjunction :=
    fun mid _ _ loose tail => .conjunction (stands mid loose) tail
  cases level with
  | conjunction => exact stands
  | disjunction => contradiction
  | _ => exact ofComparison (stands.asComparison (by decide))

theorem asDisjunction {level : Level} (stands : StandsFor ts expr level) :
    StandsFor ts expr .disjunction := by
  have ofConjunction (stands : StandsFor ts expr .conjunction) : StandsFor ts expr .disjunction :=
    fun mid _ _ loose tail =>
      .expression (stands mid mid expr (loose.mono (by omega))
        (.andEnd (loose.ne .and (by decide)))) tail
  cases level with
  | disjunction => exact stands
  | _ => exact ofConjunction (stands.asConjunction (by decide))

theorem weaken {least level : Level} (stands : StandsFor ts expr level)
    (le : least.rank ≤ level.rank) : StandsFor ts expr least := by
  cases least with
  | disjunction => exact stands.asDisjunction
  | conjunction => exact stands.asConjunction le
  | comparison => exact stands.asComparison le
  | unary => exact stands.asUnary le
  | postfixed =>
    cases level with
    | postfixed => exact stands
    | _ => contradiction

theorem expression (stands : StandsFor ts expr expr.level) {mid : List Token}
    (loose : Loose 0 mid) : Reads (.expression expr) (ts ++ mid) mid :=
  stands.asDisjunction mid mid expr (loose.mono (by omega))
    (.orEnd (loose.ne .or (by decide)))

theorem enclosed (stands : StandsFor ts expr expr.level) (least : Level) :
    StandsFor (expr.enclosed least ts) expr least := by
  unfold Expr.enclosed
  split
  · next tight => exact stands.weaken tight
  · have inner (mid : List Token) :
        Reads (.primary expr) (.openParen :: (ts ++ [.closeParen]) ++ mid) mid := by
      rw [List.cons_append, List.append_assoc, List.singleton_append]
      exact .parens (stands.expression (loose_cons (by decide) _))
    have parens : StandsFor (.openParen :: (ts ++ [.closeParen])) expr .postfixed :=
      fun mid _ _ _ tail => .postfixed (inner mid) tail
    exact parens.weaken (by cases least <;> decide)

theorem of_primary (reads : ∀ mid, Loose 4 mid → Reads (.primary expr) (ts ++ mid) mid) :
    StandsFor ts expr .postfixed :=
  fun mid _ _ loose tail => .postfixed (reads mid loose) tail

end StandsFor

section Lists

variable {exprs : List Expr} (stand : ∀ expr ∈ exprs, StandsFor expr.tokens expr expr.level)
include stand

private theorem reads_separated {phrase : List Expr → Phrase} (close : Token)
    (loose : close.grip ≤ 0)
    (last : ∀ {expr : Expr} {ts rest : List Token},
      Reads (.expression expr) ts (close :: rest) → Reads (phrase [expr]) ts rest)
    (another : ∀ {expr : Expr} {others : List Expr} {ts between rest : List Token},
      Reads (.expression expr) ts (.comma :: between) → Reads (phrase others) between rest →
      Reads (phrase (expr :: others)) ts rest)
    (nonempty : exprs ≠ []) (mid : List Token) :
    Reads (phrase exprs) (tokensAll exprs ++ close :: mid) mid := by
  induction exprs with
  | nil => contradiction
  | cons first rest ih =>
    obtain ⟨here, later⟩ := List.forall_mem_cons.mp stand
    rw [tokensAll, List.append_assoc]
    cases rest with
    | nil => exact last (here.expression (loose_cons loose _))
    | cons second rest =>
      refine another (here.expression (loose_cons (Nat.le_refl 0) _)) ?_
      exact ih later (List.cons_ne_nil second rest)

private theorem reads_arguments (mid : List Token) :
    Reads (.arguments exprs) (tokensAll exprs ++ .closeParen :: mid) mid := by
  cases exprs with
  | nil => exact .noArguments
  | cons first rest =>
    have listed := reads_separated stand .closeParen (Nat.le_refl 0) .lastArgument .argument
    exact .someArguments (listed (List.cons_ne_nil first rest) mid)

private theorem reads_items (mid : List Token) :
    Reads (.items exprs) (tokensAll exprs ++ .closeBracket :: mid) mid := by
  cases exprs with
  | nil => exact .noItems
  | cons first rest =>
    have listed := reads_separated stand .closeBracket (Nat.le_refl 0) .lastItem .item
    exact .someItems (listed (List.cons_ne_nil first rest) mid)

end Lists

theorem comparison?_tokens (op : Comparison) (ts : List Token) :
    comparison? (op.tokens ++ ts) = some (op, ts) := by
  cases op <;> rfl

theorem standsFor_tokens (expr : Expr) : StandsFor expr.tokens expr expr.level := by
  induction expr using Expr.induction with
  | literal value =>
    refine .of_primary fun mid _ => ?_
    rw [tokens, List.singleton_append]
    cases value with
    | null => exact .null
    | bool value =>
      cases value
      · exact .false
      · exact .true
    | int => exact .int
    | float => exact .float
    | string => exact .string
  | list items ih =>
    refine .of_primary fun mid _ => ?_
    rw [tokens, List.cons_append, List.append_assoc]
    exact .list (reads_items ih mid)
  | var name =>
    exact .of_primary fun mid loose => .var (loose.ne .openParen (by decide))
  | call function args ih =>
    refine .of_primary fun mid _ => ?_
    rw [tokens, List.cons_append, List.cons_append, List.append_assoc]
    exact .call (reads_arguments ih mid)
  | member target name ih =>
    intro mid rest result loose tail
    rw [tokens, List.append_assoc]
    exact ih.enclosed .postfixed _ _ _ (loose_cons (by decide) _)
      (.member (loose.ne .openParen (by decide)) tail)
  | methodCall target method args ihTarget ihArgs =>
    intro mid rest result loose tail
    rw [tokens, List.append_assoc]
    refine ihTarget.enclosed .postfixed _ _ _ (loose_cons (by decide) _) ?_
    simp only [List.cons_append, List.append_assoc]
    exact .method (reads_arguments ihArgs mid) tail
  | unary op operand ih =>
    intro mid loose
    rw [tokens, List.cons_append]
    have reads := ih.enclosed .unary mid loose
    cases op
    · exact .not reads
    · exact .minus reads
  | binary op left right ihLeft ihRight =>
    have first := ihLeft.enclosed op.leftLevel
    have second := ihRight.enclosed op.rightLevel
    cases op with
    | or =>
      intro mid rest result loose tail
      rw [tokens, List.append_assoc, List.append_assoc]
      refine first _ _ _ (by simp [Loose, Token.grip, BinaryOp.tokens]) (.orMore ?_ tail)
      exact second mid mid right (loose.mono (by omega))
        (.andEnd (loose.ne .and (by decide)))
    | and =>
      intro mid rest result loose tail
      rw [tokens, List.append_assoc, List.append_assoc]
      refine first _ _ _ (by simp [Loose, Token.grip, BinaryOp.tokens]) (.andMore ?_ tail)
      exact second mid loose
    | compare op =>
      intro mid loose
      rw [tokens, List.append_assoc, List.append_assoc]
      refine .compared (first _ ?_) (comparison?_tokens op _) (second mid (loose.mono (by omega)))
      cases op <;> simp [Loose, Token.grip, BinaryOp.tokens, Comparison.tokens]

theorem ofTokens?_tokens (expr : Expr) : ofTokens? expr.tokens = some expr := by
  rw [ofTokens?_eq_some_iff]
  have ended : Loose 0 [] := nofun
  have reads := (standsFor_tokens expr).expression ended
  rwa [List.append_nil] at reads

def parens (ts : List Token) : Nat :=
  ts.count .openParen

@[simp]
theorem parens_nil : parens [] = 0 := rfl

@[simp]
theorem parens_openParen (ts : List Token) : parens (.openParen :: ts) = parens ts + 1 :=
  List.count_cons_self

@[simp]
theorem parens_append (first second : List Token) :
    parens (first ++ second) = parens first + parens second :=
  List.count_append

theorem parens_cons {token : Token} (other : token ≠ .openParen) (ts : List Token) :
    parens (token :: ts) = parens ts :=
  List.count_cons_of_ne other

def needed (least : Level) (operand : Expr) : Nat :=
  parens (enclosed least operand operand.tokens)

theorem needed_eq (least : Level) (operand : Expr) :
    needed least operand =
      parens operand.tokens + if least.rank ≤ operand.level.rank then 0 else 1 := by
  unfold needed enclosed
  split
  · rfl
  · simp [parens_cons]

theorem needed_of_le {least : Level} {operand : Expr} (tight : least.rank ≤ operand.level.rank) :
    needed least operand = parens operand.tokens := by
  rw [needed_eq, if_pos tight, Nat.add_zero]

theorem needed_level (operand : Expr) : needed operand.level operand = parens operand.tokens :=
  needed_of_le (Nat.le_refl _)

theorem needed_disjunction (operand : Expr) : needed .disjunction operand = parens operand.tokens :=
  needed_of_le (Nat.zero_le _)

theorem needed_le (least : Level) (operand : Expr) :
    needed least operand ≤ parens operand.tokens + 1 := by
  rw [needed_eq]
  split <;> omega

theorem needed_mono {least most : Level} (le : least.rank ≤ most.rank) (operand : Expr) :
    needed least operand ≤ needed most operand := by
  rw [needed_eq, needed_eq]
  split <;> split <;> omega

section Tokens

attribute [local simp] tokens tokensAll tokensMore

@[simp]
theorem parens_tokens_literal (value : Literal) : parens (literal value).tokens = 0 := by
  cases value with
  | bool value => cases value <;> rfl
  | _ => rfl

@[simp]
theorem parens_tokens_var (name : String) : parens (var name).tokens = 0 := by
  simp [parens_cons]

@[simp]
theorem parens_tokens_list (items : List Expr) :
    parens (list items).tokens = parens (tokensAll items) := by
  simp [parens_cons]

@[simp]
theorem parens_tokens_member (target : Expr) (name : String) :
    parens (member target name).tokens = needed .postfixed target := by
  simp [parens_cons, needed]

@[simp]
theorem parens_tokens_methodCall (target : Expr) (method : String) (args : List Expr) :
    parens (methodCall target method args).tokens =
      needed .postfixed target + (parens (tokensAll args) + 1) := by
  simp [parens_cons, needed]

@[simp]
theorem parens_tokens_call (function : String) (args : List Expr) :
    parens (call function args).tokens = parens (tokensAll args) + 1 := by
  simp [parens_cons]

@[simp]
theorem parens_tokens_unary (op : UnaryOp) (operand : Expr) :
    parens (unary op operand).tokens = needed .unary operand := by
  cases op <;> simp [UnaryOp.token, parens_cons, needed]

@[simp]
theorem parens_tokens_binary (op : BinaryOp) (left right : Expr) :
    parens (binary op left right).tokens =
      needed op.leftLevel left + needed op.rightLevel right := by
  have operator : parens op.tokens = 0 := by
    cases op with
    | or | and => rfl
    | compare op => cases op <;> rfl
  simp [operator, needed]

@[simp]
theorem parens_tokensAll_nil : parens (tokensAll []) = 0 := rfl

@[simp]
theorem parens_tokensAll_cons (first : Expr) (rest : List Expr) :
    parens (tokensAll (first :: rest)) = parens first.tokens + parens (tokensAll rest) := by
  cases rest <;> simp [parens_cons]

end Tokens

def Phrase.Opens (ts rest : List Token) : Phrase → Prop
  | expression result => needed .disjunction result + parens rest ≤ parens ts
  | conjunction result => needed .conjunction result + parens rest ≤ parens ts
  | comparing result => needed .comparison result + parens rest ≤ parens ts
  | unary result => needed .unary result + parens rest ≤ parens ts
  | primary result => needed .postfixed result + parens rest ≤ parens ts
  | orTail left result =>
    needed .disjunction result + parens rest ≤ needed .disjunction left + parens ts
  | andTail left result =>
    needed .conjunction result + parens rest ≤ needed .conjunction left + parens ts
  | postfixTail left result =>
    needed .postfixed result + parens rest ≤ needed .postfixed left + parens ts
  | arguments results | argumentList results | items results | itemList results =>
    parens (tokensAll results) + parens rest ≤ parens ts

theorem parens_comparison? {ts rest : List Token} {op : Comparison}
    (found : comparison? ts = some (op, rest)) : parens ts = parens rest := by
  unfold comparison? at found
  split at found <;> cases found <;> simp [parens_cons]

theorem Reads.opens {phrase : Phrase} {ts rest : List Token} (reads : Reads phrase ts rest) :
    phrase.Opens ts rest := by
  induction reads with
  | @expression first _ _ _ _ _ _ head tail =>
    have looser : needed .disjunction first ≤ needed .conjunction first :=
      needed_mono (by decide) first
    simp only [Phrase.Opens] at *
    omega
  | @conjunction first _ _ _ _ _ _ head tail =>
    have looser : needed .conjunction first ≤ needed .comparison first :=
      needed_mono (by decide) first
    simp only [Phrase.Opens] at *
    omega
  | @operand result _ _ _ _ ih =>
    have looser : needed .comparison result ≤ needed .unary result := needed_mono (by decide) result
    simp only [Phrase.Opens] at *
    omega
  | @postfixed _ result _ _ _ _ _ head tail =>
    have looser : needed .unary result ≤ needed .postfixed result := needed_mono (by decide) result
    simp only [Phrase.Opens] at *
    omega
  | @orMore left right _ _ _ _ _ _ head tail =>
    have chain := needed_level (.binary .or left right)
    simp only [Phrase.Opens, level, parens_tokens_binary, BinaryOp.leftLevel,
      BinaryOp.rightLevel] at *
    rw [parens_cons (by decide)]
    omega
  | @andMore left right _ _ _ _ _ _ head tail =>
    have chain := needed_level (.binary .and left right)
    simp only [Phrase.Opens, level, parens_tokens_binary, BinaryOp.leftLevel,
      BinaryOp.rightLevel] at *
    rw [parens_cons (by decide)]
    omega
  | orEnd | andEnd | postfixEnd => exact Nat.le_refl _
  | @compared left right op _ _ _ _ _ found _ first second =>
    have same := needed_level (.binary (.compare op) left right)
    have operator := parens_comparison? found
    simp only [Phrase.Opens, level, parens_tokens_binary, BinaryOp.leftLevel,
      BinaryOp.rightLevel] at *
    omega
  | @not operand _ _ _ ih | @bang operand _ _ _ ih =>
    have same := needed_level (.unary .not operand)
    simp only [Phrase.Opens, level, parens_tokens_unary] at *
    rw [parens_cons (by decide)]
    omega
  | @minus operand _ _ _ ih =>
    have same := needed_level (.unary .neg operand)
    simp only [Phrase.Opens, level, parens_tokens_unary] at *
    rw [parens_cons (by decide)]
    omega
  | @method target _ name args _ _ _ _ _ ihArgs tail =>
    have same := needed_level (.methodCall target name args)
    simp only [Phrase.Opens, level, parens_tokens_methodCall] at *
    rw [parens_cons (by decide), parens_cons (by simp), parens_openParen]
    omega
  | @member target _ name _ _ _ _ ih =>
    have same := needed_level (.member target name)
    simp only [Phrase.Opens, level, parens_tokens_member] at *
    rw [parens_cons (by decide), parens_cons (by simp)]
    omega
  | string | int | float | «true» | «false» | null | var =>
    simp [Phrase.Opens, needed_eq, parens_cons, level]
  | @list results _ _ _ ih =>
    have same := needed_level (.list results)
    simp only [Phrase.Opens, level, parens_tokens_list] at *
    rw [parens_cons (by decide)]
    omega
  | @parens result _ _ _ ih =>
    have enclosed := needed_le .postfixed result
    simp only [Phrase.Opens, needed_disjunction, parens_openParen] at *
    rw [parens_cons (by decide)] at ih
    omega
  | @call function args _ _ _ ih =>
    have same := needed_level (.call function args)
    simp only [Phrase.Opens, level, parens_tokens_call] at *
    rw [parens_cons (by simp), parens_openParen]
    omega
  | noArguments | noItems | onlyComma => simp [Phrase.Opens, parens_cons, tokensAll]
  | someArguments _ ih | someItems _ ih => exact ih
  | argument _ _ first others | item _ _ first others =>
    simp only [Phrase.Opens, needed_disjunction, parens_tokensAll_cons] at *
    rw [parens_cons (by decide)] at first
    omega
  | lastArgument _ ih | lastItem _ ih | lastItemComma _ ih =>
    simp only [Phrase.Opens, needed_disjunction, parens_tokensAll_cons, parens_tokensAll_nil] at *
    repeat rw [parens_cons (by decide)] at ih
    omega

end Expr

end Visibility
