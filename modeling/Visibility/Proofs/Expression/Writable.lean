import Visibility.Proofs.Expression.Printing
import Visibility.Proofs.Expression.Reading

set_option autoImplicit false
set_option relaxedAutoImplicit false

/-!
The expressions that can be written.

What holds of the names and literals of an expression holds of its tokens, and the other way round.
The main statement is that an expression which can be written is read back from its text, and that
every expression which is read can be written, numbers with a decimal point apart.
-/

namespace Visibility

namespace Expr

inductive Built (names : String → Prop) (literals : Literal → Prop) : Expr → Prop
  | literal {value : Literal} : literals value → Built names literals (.literal value)
  | list {items : List Expr} :
      (∀ item ∈ items, Built names literals item) → Built names literals (.list items)
  | var {name : String} : names name → Built names literals (.var name)
  | member {target : Expr} {name : String} :
      Built names literals target → names name → Built names literals (.member target name)
  | methodCall {target : Expr} {method : String} {args : List Expr} :
      Built names literals target → names method → (∀ arg ∈ args, Built names literals arg) →
      Built names literals (.methodCall target method args)
  | call {function : String} {args : List Expr} :
      names function → (∀ arg ∈ args, Built names literals arg) →
      Built names literals (.call function args)
  | unary {op : UnaryOp} {operand : Expr} :
      Built names literals operand → Built names literals (.unary op operand)
  | binary {op : BinaryOp} {left right : Expr} :
      Built names literals left → Built names literals right →
      Built names literals (.binary op left right)

end Expr

/-- Whether a literal can be written exactly: it is no floating-point number and in range. -/
def Literal.isExact : Literal → Bool
  | int value => value < 0x8000000000000000
  | float _ => false
  | _ => true

def Literal.isFloat : Literal → Bool
  | float _ => true
  | _ => false

/-- What a token says about the names and literals of the expression that it is part of.  Comparisons
with `in` have tokens of their own. -/
def Token.Fits (names : String → Prop) (literals : Literal → Prop) : Token → Prop
  | name word => names word
  | string text => literals (.string text)
  | int value => literals (.int value)
  | float value => literals (.float value)
  | true => literals (.bool Bool.true)
  | false => literals (.bool Bool.false)
  | null => literals .null
  | comparison op => op ≠ .isIn ∧ op ≠ .notIn
  | _ => True

namespace Token

theorem fits_iff (token : Token) :
    token.Fits (fun name => isName name) (fun value => value.isExact) ↔
      token.isSound ∧ ¬ token.isFloat := by
  cases token with
  | comparison op => cases op <;> simp [Fits, isSound, isFloat]
  | _ => simp [Fits, isSound, isFloat, Literal.isExact]

theorem fits_of_isSound {token : Token} (sound : token.isSound) :
    token.Fits (fun name => isName name) fun value => value.isExact ∨ value.isFloat := by
  cases token with
  | comparison op => cases op <;> simp_all [Fits, isSound]
  | _ => simp_all [Fits, isSound, Literal.isExact, Literal.isFloat]

end Token

namespace Expr

def FloatFree : Expr → Prop :=
  Built (fun _ => True) fun value => ¬ value.isFloat

/-- Expressions that can be written: every name is one, and every literal is exact. -/
def IsWritable : Expr → Prop :=
  Built (fun name => Token.isName name) fun value => value.isExact

section Built

variable {names : String → Prop} {literals : Literal → Prop}

theorem Built.both {names' names'' : String → Prop} {literals' literals'' : Literal → Prop}
    {expr : Expr} (built : Built names literals expr) (also : Built names' literals' expr)
    (name : ∀ n, names n → names' n → names'' n)
    (literal : ∀ l, literals l → literals' l → literals'' l) : Built names'' literals'' expr := by
  induction built with
  | literal here =>
    cases also with
    | literal too => exact .literal (literal _ here too)
  | list _ ih =>
    cases also with
    | list too => exact .list fun item present => ih item present (too item present)
  | var here =>
    cases also with
    | var too => exact .var (name _ here too)
  | member _ here ih =>
    cases also with
    | member target too => exact .member (ih target) (name _ here too)
  | methodCall _ here _ ihTarget ihArgs =>
    cases also with
    | methodCall target too args =>
      exact .methodCall (ihTarget target) (name _ here too) fun arg present =>
        ihArgs arg present (args arg present)
  | call here _ ih =>
    cases also with
    | call too args =>
      exact .call (name _ here too) fun arg present => ih arg present (args arg present)
  | unary _ ih =>
    cases also with
    | unary operand => exact .unary (ih operand)
  | binary _ _ ihLeft ihRight =>
    cases also with
    | binary left right => exact .binary (ihLeft left) (ihRight right)

theorem fits_enclosed {ts : List Token} (fit : ∀ t ∈ ts, t.Fits names literals) (least : Level)
    (expr : Expr) : ∀ t ∈ enclosed least expr ts, t.Fits names literals := by
  unfold enclosed
  split
  · exact fit
  · simp only [List.mem_cons, List.mem_append, List.not_mem_nil, or_false]
    rintro t (rfl | present | rfl)
    · trivial
    · exact fit t present
    · trivial

theorem fits_tokensMore {exprs : List Expr}
    (fit : ∀ expr ∈ exprs, ∀ t ∈ expr.tokens, t.Fits names literals) :
    ∀ t ∈ tokensMore exprs, t.Fits names literals := by
  induction exprs with
  | nil => nofun
  | cons first rest ih =>
    obtain ⟨here, later⟩ := List.forall_mem_cons.mp fit
    exact List.forall_mem_cons.mpr ⟨trivial, List.forall_mem_append.mpr ⟨here, ih later⟩⟩

theorem fits_tokensAll {exprs : List Expr}
    (fit : ∀ expr ∈ exprs, ∀ t ∈ expr.tokens, t.Fits names literals) :
    ∀ t ∈ tokensAll exprs, t.Fits names literals := by
  cases exprs with
  | nil => nofun
  | cons first rest =>
    obtain ⟨here, later⟩ := List.forall_mem_cons.mp fit
    exact List.forall_mem_append.mpr ⟨here, fits_tokensMore later⟩

theorem Built.fits {expr : Expr} (built : Built names literals expr) :
    ∀ t ∈ expr.tokens, t.Fits names literals := by
  induction built with
  | @literal value here =>
    simp only [tokens, List.mem_singleton, forall_eq]
    cases value with
    | bool value => cases value <;> exact here
    | _ => exact here
  | list _ ih =>
    simp only [tokens, List.forall_mem_cons, List.forall_mem_append]
    exact ⟨trivial, fits_tokensAll ih, trivial, List.forall_mem_nil _⟩
  | var here => exact List.forall_mem_singleton.mpr here
  | member _ here ih =>
    simp only [tokens, List.forall_mem_cons, List.forall_mem_append]
    exact ⟨fits_enclosed ih _ _, trivial, here, List.forall_mem_nil _⟩
  | methodCall _ here _ ihTarget ihArgs =>
    simp only [tokens, List.forall_mem_cons, List.forall_mem_append]
    exact ⟨fits_enclosed ihTarget _ _, trivial, here, trivial, fits_tokensAll ihArgs, trivial,
      List.forall_mem_nil _⟩
  | call here _ ih =>
    simp only [tokens, List.forall_mem_cons, List.forall_mem_append]
    exact ⟨here, trivial, fits_tokensAll ih, trivial, List.forall_mem_nil _⟩
  | @unary op _ _ ih =>
    simp only [tokens, List.forall_mem_cons]
    exact ⟨by cases op <;> trivial, fits_enclosed ih _ _⟩
  | @binary op _ _ _ _ ihLeft ihRight =>
    simp only [tokens, List.forall_mem_append]
    refine ⟨fits_enclosed ihLeft _ _, ?_, fits_enclosed ihRight _ _⟩
    cases op with
    | or | and => exact List.forall_mem_singleton.mpr trivial
    | compare op =>
      cases op <;> simp [BinaryOp.tokens, Comparison.tokens, Token.Fits]

def Phrase.IsBuilt (names : String → Prop) (literals : Literal → Prop) : Phrase → Prop
  | expression result | conjunction result | comparing result | unary result | primary result =>
    Built names literals result
  | orTail left result | andTail left result | postfixTail left result =>
    Built names literals left → Built names literals result
  | arguments results | argumentList results | items results | itemList results =>
    ∀ result ∈ results, Built names literals result

theorem Reads.isBuilt {phrase : Phrase} {ts rest : List Token} (reads : Reads phrase ts rest)
    (fit : ∀ t ∈ ts, t.Fits names literals) : phrase.IsBuilt names literals := by
  induction reads with
  | expression head _ first tail | conjunction head _ first tail | postfixed head _ first tail =>
    exact tail (fun t present => fit t (head.suffix.subset present)) (first fit)
  | orMore head _ ihHead ihTail | andMore head _ ihHead ihTail =>
    obtain ⟨-, fit⟩ := List.forall_mem_cons.mp fit
    intro left
    exact ihTail (fun t present => fit t (head.suffix.subset present)) (.binary left (ihHead fit))
  | orEnd | andEnd | postfixEnd => exact id
  | compared head found _ first second =>
    have after := (suffix_of_comparison? found).trans head.suffix
    exact .binary (first fit) (second fun t present => fit t (after.subset present))
  | operand _ _ ih | someArguments _ ih | someItems _ ih => exact ih fit
  | not _ ih | bang _ ih | minus _ ih =>
    obtain ⟨-, fit⟩ := List.forall_mem_cons.mp fit
    exact .unary (ih fit)
  | method args _ ihArgs ihTail =>
    simp only [List.forall_mem_cons] at fit
    obtain ⟨-, name, -, fit⟩ := fit
    intro target
    exact ihTail (fun t present => fit t (args.suffix.subset present))
      (.methodCall target name (ihArgs fit))
  | member _ _ ih =>
    simp only [List.forall_mem_cons] at fit
    obtain ⟨-, name, fit⟩ := fit
    intro target
    exact ih fit (.member target name)
  | string | int | float | «true» | «false» | null =>
    exact .literal (fit _ List.mem_cons_self)
  | list _ ih =>
    obtain ⟨-, fit⟩ := List.forall_mem_cons.mp fit
    exact .list (ih fit)
  | parens _ ih =>
    obtain ⟨-, fit⟩ := List.forall_mem_cons.mp fit
    exact ih fit
  | call _ ih =>
    simp only [List.forall_mem_cons] at fit
    obtain ⟨name, -, fit⟩ := fit
    exact .call name (ih fit)
  | var => exact .var (fit _ List.mem_cons_self)
  | noArguments | noItems | onlyComma => nofun
  | argument head _ first others | item head _ first others =>
    refine List.forall_mem_cons.mpr ⟨first fit, others fun t present => fit t ?_⟩
    exact head.suffix.subset (List.mem_cons_of_mem _ present)
  | lastArgument _ ih | lastItem _ ih | lastItemComma _ ih =>
    exact List.forall_mem_singleton.mpr (ih fit)

end Built

theorem IsWritable.scan_print {expr : Expr} (writable : expr.IsWritable) (quote : Quote) :
    Token.scan (expr.print quote).toList = some expr.tokens := by
  rw [print, String.toList_ofList]
  exact Token.scan_layout quote fun token present => token.fits_iff.mp (writable.fits token present)

theorem IsWritable.of_parse? {text : String} {expr : Expr} (parsed : parse? text = some expr)
    (free : expr.FloatFree) : expr.IsWritable := by
  obtain ⟨ts, scanned, reads⟩ := parse?_eq_some_iff.mp parsed
  have built : Built (fun name => Token.isName name) (fun value => value.isExact ∨ value.isFloat)
      expr :=
    reads.isBuilt fun token present =>
      Token.fits_of_isSound (Token.isSound_of_mem_scan scanned token present)
  exact built.both free (fun _ named _ => named) fun _ exact noFloat => exact.resolve_right noFloat

/-- An expression that can be written is read back from its text.  What is read from a text can be
written, unless it has a floating-point number.  No tokens that spell an expression open fewer
parentheses than those that are printed. -/
theorem parse?_print (quote : Quote) (expr : Expr) :
    (expr.IsWritable → parse? (expr.print quote) = some expr) ∧
      (∀ text, parse? text = some expr → expr.FloatFree → expr.IsWritable) ∧
      ∀ ts, ofTokens? ts = some expr → parens expr.tokens ≤ parens ts := by
  refine ⟨fun writable => ?_, fun text => IsWritable.of_parse?, fun ts spelled => ?_⟩
  · rw [parse?, writable.scan_print]
    exact ofTokens?_tokens expr
  · have opens : needed .disjunction expr + parens [] ≤ parens ts :=
      (ofTokens?_eq_some_iff.mp spelled).opens
    rw [needed_disjunction] at opens
    exact opens

section Nested

/-- `not ('it\'s' in [order]) or (-1).owner()` -/
def nested : Expr :=
  .binary .or
    (.unary .not (.binary (.compare .isIn) (.literal (.string "it's")) (.list [.var "order"])))
    (.methodCall (.unary .neg (.literal (.int 1))) "owner" [])

theorem isWritable_nested : nested.IsWritable := by
  have item : ∀ item ∈ [var "order"], item.IsWritable :=
    List.forall_mem_singleton.mpr (.var (by decide))
  exact .binary (.unary (.binary (.literal rfl) (.list item)))
    (.methodCall (.unary (.literal (by decide))) (by decide) (List.forall_mem_nil _))

theorem floatFree_nested : nested.FloatFree :=
  isWritable_nested.both isWritable_nested (fun _ _ _ => trivial) fun value exact _ => by
    cases value <;> simp_all [Literal.isExact, Literal.isFloat]

theorem parse?_print_nested :
    nested.IsWritable ∧ nested.FloatFree ∧ parse? (nested.print .single) = some nested ∧
      parens nested.tokens ≤ parens nested.tokens :=
  have read := (parse?_print .single nested).1 isWritable_nested
  ⟨(parse?_print .single nested).2.1 _ read floatFree_nested, floatFree_nested, read,
    (parse?_print .single nested).2.2 _ (ofTokens?_tokens nested)⟩

example : nested.print .single = "not ('it\\'s' in [order]) or (-1).owner()" := by decide

end Nested

end Expr

end Visibility
