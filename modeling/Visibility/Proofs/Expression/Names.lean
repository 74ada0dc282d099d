import Visibility.Expression.Evaluation

set_option autoImplicit false
set_option relaxedAutoImplicit false

/-!
What an expression names, and that its value depends on nothing else.

An expression names the variables that stand in it, and the caller where it calls a function about the
caller.  The main statement is that two environments give it the same outcome where they agree on what
it names.
-/

namespace Visibility

namespace Expr

inductive Mentions (name : String) : Expr → Prop where
  | var : Mentions name (.var name)
  | item {item : Expr} {items : List Expr} :
      item ∈ items → Mentions name item → Mentions name (.list items)
  | memberTarget {target : Expr} {member : String} :
      Mentions name target → Mentions name (.member target member)
  | methodTarget {target : Expr} {method : String} {args : List Expr} :
      Mentions name target → Mentions name (.methodCall target method args)
  | methodArgument {target arg : Expr} {method : String} {args : List Expr} :
      arg ∈ args → Mentions name arg → Mentions name (.methodCall target method args)
  | callArgument {arg : Expr} {function : String} {args : List Expr} :
      arg ∈ args → Mentions name arg → Mentions name (.call function args)
  | operand {op : UnaryOp} {operand : Expr} :
      Mentions name operand → Mentions name (.unary op operand)
  | left {op : BinaryOp} {left right : Expr} :
      Mentions name left → Mentions name (.binary op left right)
  | right {op : BinaryOp} {left right : Expr} :
      Mentions name right → Mentions name (.binary op left right)

/-- Whether a function about the caller, or a method of the caller, stands in an expression. -/
inductive AsksCaller : Expr → Prop where
  | function {function : String} {args : List Expr} :
      function ∈ ["is_granted", "is_authenticated", "has_role"] → AsksCaller (.call function args)
  | method {target : Expr} {method : String} {args : List Expr} :
      target = .var "auth_checker" → AsksCaller (.methodCall target method args)
  | item {item : Expr} {items : List Expr} : item ∈ items → AsksCaller item → AsksCaller (.list items)
  | memberTarget {target : Expr} {member : String} :
      AsksCaller target → AsksCaller (.member target member)
  | methodTarget {target : Expr} {method : String} {args : List Expr} :
      AsksCaller target → AsksCaller (.methodCall target method args)
  | methodArgument {target arg : Expr} {method : String} {args : List Expr} :
      arg ∈ args → AsksCaller arg → AsksCaller (.methodCall target method args)
  | callArgument {arg : Expr} {function : String} {args : List Expr} :
      arg ∈ args → AsksCaller arg → AsksCaller (.call function args)
  | operand {op : UnaryOp} {operand : Expr} : AsksCaller operand → AsksCaller (.unary op operand)
  | left {op : BinaryOp} {left right : Expr} : AsksCaller left → AsksCaller (.binary op left right)
  | right {op : BinaryOp} {left right : Expr} : AsksCaller right → AsksCaller (.binary op left right)

variable {env other : Environment}

theorem evalAll_congr {exprs : List Expr} (same : ∀ expr ∈ exprs, expr.eval env = expr.eval other) :
    evalAll env exprs = evalAll other exprs := by
  induction exprs with
  | nil => rfl
  | cons first rest ih =>
    obtain ⟨here, later⟩ := List.forall_mem_cons.mp same
    rw [evalAll, evalAll, here, ih later]

theorem ofName?_eq_none {function : String}
    (stranger : function ∉ ["is_granted", "is_authenticated", "has_role"]) :
    Function.ofName? function = none := by
  unfold Function.ofName?
  split <;> simp_all

theorem eval_call_congr {function : String} {args : List Expr}
    (caller : ¬ AsksCaller (.call function args) ∨ env.caller = other.caller)
    (all : evalAll env args = evalAll other args) :
    (call function args).eval env = (call function args).eval other := by
  rw [eval, eval, all]
  rcases caller with alone | same
  · have unknown : Function.resolve function args.length = .error (.unknownFunction function) := by
      rw [Function.resolve, ofName?_eq_none fun known => alone (.function known)]
    rw [unknown]
    rfl
  · rw [same]

theorem eval_methodCall_congr {target : Expr} {method : String} {args : List Expr}
    (caller : ¬ AsksCaller (.methodCall target method args) ∨ env.caller = other.caller)
    (inTarget : target.eval env = target.eval other) (inArgs : evalAll env args = evalAll other args) :
    (methodCall target method args).eval env = (methodCall target method args).eval other := by
  rw [eval, eval, inTarget, inArgs]
  rcases caller with alone | same
  · have apart : target.isCaller = false := by
      cases target with
      | var name =>
        rw [isCaller, decide_eq_false_iff_not]
        rintro rfl
        exact alone (.method rfl)
      | _ => rfl
    simp only [apart, Bool.false_eq_true, if_false]
  · rw [same]

theorem eval_congr {expr : Expr} (caller : ¬ expr.AsksCaller ∨ env.caller = other.caller)
    (same : ∀ name, expr.Mentions name → env.lookup name = other.lookup name) :
    expr.eval env = expr.eval other := by
  induction expr using Expr.induction with
  | literal value => rw [eval, eval]
  | list items ih =>
    have all := evalAll_congr fun item present => ih item present
      (caller.imp_left fun alone asks => alone (.item present asks))
      fun name mentions => same name (.item present mentions)
    rw [eval, eval, all]
  | var name => rw [eval, eval, same name .var]
  | member target name ih =>
    rw [eval, eval, ih (caller.imp_left fun alone asks => alone (.memberTarget asks))
      fun name mentions => same name (.memberTarget mentions)]
  | methodCall target method args ihTarget ihArgs =>
    refine eval_methodCall_congr caller ?_ (evalAll_congr fun arg present => ?_)
    · exact ihTarget (caller.imp_left fun alone asks => alone (.methodTarget asks))
        fun name mentions => same name (.methodTarget mentions)
    · exact ihArgs arg present (caller.imp_left fun alone asks => alone (.methodArgument present asks))
        fun name mentions => same name (.methodArgument present mentions)
  | call function args ih =>
    refine eval_call_congr caller (evalAll_congr fun arg present => ?_)
    exact ih arg present (caller.imp_left fun alone asks => alone (.callArgument present asks))
      fun name mentions => same name (.callArgument present mentions)
  | unary op operand ih =>
    rw [eval, eval, ih (caller.imp_left fun alone asks => alone (.operand asks))
      fun name mentions => same name (.operand mentions)]
  | binary op left right ihLeft ihRight =>
    have inLeft := ihLeft (caller.imp_left fun alone asks => alone (.left asks))
      fun name mentions => same name (.left mentions)
    have inRight := ihRight (caller.imp_left fun alone asks => alone (.right asks))
      fun name mentions => same name (.right mentions)
    cases op with
    | and => rw [eval, eval, inLeft, inRight]
    | or => rw [eval, eval, inLeft, inRight]
    | compare op => rw [eval, eval, inLeft, inRight]

end Expr

structure Caller.AnswersLike (caller other : Caller) : Prop where
  user : caller.user = other.user
  roles : caller.roles = other.roles
  authenticated : caller.authenticated = other.authenticated
  grants : ∀ permission subject, caller.grants permission subject = other.grants permission subject

theorem Caller.AnswersLike.eq {caller other : Caller} (alike : caller.AnswersLike other) :
    caller = other := by
  obtain ⟨user, roles, authenticated, grants⟩ := alike
  have sameGrants : caller.grants = other.grants :=
    funext fun permission => funext fun subject => grants permission subject
  cases caller
  cases other
  simp_all

namespace Environment

/-- Whether two environments hold the same for all that an expression names: the instance, the caller
and the further values, each as far as it is named. -/
structure AgreesOn (env other : Environment) (expr : Expr) : Prop where
  object : ¬ expr.Mentions "object" ∨ env.object = other.object
  caller : (¬ expr.Mentions "user" ∧ ¬ expr.Mentions "roles" ∧ ¬ expr.AsksCaller) ∨
    env.caller.AnswersLike other.caller
  extra : ∀ name, name ∉ ["object", "user", "roles"] → expr.Mentions name →
    env.extra.lookup name = other.extra.lookup name

variable {env other : Environment} {expr : Expr}

theorem lookup_congr_extra {name : String} (further : name ∉ ["object", "user", "roles"])
    (same : env.extra.lookup name = other.extra.lookup name) : env.lookup name = other.lookup name := by
  unfold lookup
  split <;> simp_all

theorem AgreesOn.lookup_eq (agrees : env.AgreesOn other expr) {name : String}
    (mentions : expr.Mentions name) : env.lookup name = other.lookup name := by
  have sameCaller (told : ¬ (¬ expr.Mentions "user" ∧ ¬ expr.Mentions "roles" ∧ ¬ expr.AsksCaller)) :
      env.caller = other.caller := (agrees.caller.resolve_left told).eq
  by_cases further : name ∈ ["object", "user", "roles"]
  · simp only [List.mem_cons, List.not_mem_nil, or_false] at further
    rcases further with rfl | rfl | rfl
    · have same : env.object = other.object := agrees.object.resolve_left (not_not_intro mentions)
      rw [lookup, lookup, same]
    · rw [lookup, lookup, sameCaller fun alone => alone.1 mentions]
    · rw [lookup, lookup, sameCaller fun alone => alone.2.1 mentions]
  · exact lookup_congr_extra further (agrees.extra name further mentions)

end Environment

/-- An expression has the same outcome, a value or an error, in environments that agree on what it
names, and it asks the same about the caller. -/
theorem Expr.eval_eq_of_agreesOn {env other : Environment} {expr : Expr}
    (agrees : env.AgreesOn other expr) : expr.eval env = expr.eval other :=
  eval_congr (agrees.caller.imp (fun alone => alone.2.2) fun alike => alike.eq)
    fun _ mentions => agrees.lookup_eq mentions

def Expr.limitOrShop : Expr :=
  .binary .or (.binary (.compare .gt) (.var "limit") (.literal (.int 2)))
    (.methodCall (.var "shop") "isOpen" [])

/-- A limit for an anonymous caller, and no shop.  The further value called `user` is never seen, since
`user` is the caller's. -/
def limitedEnvironment : Environment where
  object := some (.string "book")
  caller := RoleHolder.anonymous.toCaller
  extra := [("user", .string "nobody"), ("limit", .int 1)]

def limitedStaffEnvironment : Environment where
  object := none
  caller := RoleHolder.toCaller { user := some (.string "ann"), roles := ["ADMIN"] }
  extra := [("limit", .int 1), ("page", .null)]

theorem Expr.eval_eq_of_agreesOn_limitOrShop :
    limitedEnvironment.AgreesOn limitedStaffEnvironment .limitOrShop ∧
      limitOrShop.eval limitedEnvironment = limitOrShop.eval limitedStaffEnvironment := by
  have named (name : String) (mentions : limitOrShop.Mentions name) :
      name = "limit" ∨ name = "shop" := by
    cases mentions with
    | left inLimit =>
      cases inLimit with
      | left inVar =>
        cases inVar
        exact .inl rfl
      | right inLiteral => nomatch inLiteral
    | right inShop =>
      cases inShop with
      | methodTarget inVar =>
        cases inVar
        exact .inr rfl
      | methodArgument present => nomatch present
  have unasked : ¬ limitOrShop.AsksCaller := by
    intro asks
    cases asks with
    | left inLimit =>
      cases inLimit with
      | left inVar => nomatch inVar
      | right inLiteral => nomatch inLiteral
    | right inShop =>
      cases inShop with
      | method same => simp at same
      | methodTarget inVar => nomatch inVar
      | methodArgument present => nomatch present
  have agrees : limitedEnvironment.AgreesOn limitedStaffEnvironment .limitOrShop := by
    refine ⟨.inl fun mentions => ?_, .inl ⟨fun mentions => ?_, fun mentions => ?_, unasked⟩,
      fun name _ mentions => ?_⟩
    · simpa using named _ mentions
    · simpa using named _ mentions
    · simpa using named _ mentions
    · rcases named name mentions with rfl | rfl
      · rfl
      · rfl
  exact ⟨agrees, eval_eq_of_agreesOn agrees⟩

end Visibility
