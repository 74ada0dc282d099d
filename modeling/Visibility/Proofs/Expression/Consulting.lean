import Visibility.Expression.Evaluator

set_option autoImplicit false
set_option relaxedAutoImplicit false

/-!
What the outcome of an expression knows of the caller.

Every answer of the caller that an outcome rests on stands in its consultations.  The main statement is
that another caller, who gives the same answers there, gets the same outcome by the same consultations
in the same order.
-/

namespace Visibility

def Consultation.AnsweredAlike (caller other : Caller) : Consultation → Prop
  | permission ⟨name, subject⟩ => caller.grants name subject = other.grants name subject
  | user => caller.user = other.user
  | roles => caller.roles = other.roles
  | authenticated => caller.authenticated = other.authenticated

variable {α β : Type} {caller other : Caller}

namespace Inquiry

/-- Whether the second computation is the first one, unless `other` answers one of its consultations
in another way than `caller`. -/
def Follows (caller other : Caller) (first second : Inquiry α) : Prop :=
  (∀ consultation ∈ first.consultations, consultation.AnsweredAlike caller other) → second = first

theorem Follows.refl (first : Inquiry α) : first.Follows caller other first := fun _ => rfl

theorem Follows.bind {first second : Inquiry α} {next later : α → Inquiry β}
    (follows : first.Follows caller other second)
    (onward : ∀ value, (next value).Follows caller other (later value)) :
    (first >>= next).Follows caller other (second >>= later) := by
  intro alike
  cases came : first.result with
  | error error =>
    rw [bind_of_error came] at alike
    rw [follows alike, bind_of_error came, bind_of_error came]
  | ok value =>
    rw [bind_of_ok came] at alike
    obtain ⟨here, after⟩ := List.forall_mem_append.mp alike
    rw [follows here, bind_of_ok came, bind_of_ok came, onward value after]

theorem follows_of_answer {consultation : Consultation} {answer otherAnswer : α}
    (same : consultation.AnsweredAlike caller other → answer = otherAnswer) :
    Follows caller other ⟨.ok answer, [consultation]⟩ ⟨.ok otherAnswer, [consultation]⟩ := by
  intro alike
  rw [same (alike consultation List.mem_cons_self)]

theorem follows_ask (permission : String) (subject : Option Json) :
    (ask caller permission subject).Follows caller other (ask other permission subject) :=
  follows_of_answer id

theorem follows_askUser : (askUser caller).Follows caller other (askUser other) :=
  follows_of_answer id

theorem follows_askRoles : (askRoles caller).Follows caller other (askRoles other) :=
  follows_of_answer id

theorem follows_askAuthenticated :
    (askAuthenticated caller).Follows caller other (askAuthenticated other) :=
  follows_of_answer id

end Inquiry

open Inquiry

namespace Function

theorem follows_anyGranted (subject : Option Json) (permissions : List Json) :
    (anyGranted caller subject permissions).Follows caller other
      (anyGranted other subject permissions) := by
  induction permissions with
  | nil => exact .refl _
  | cons first rest ih =>
    cases first with
    | string permission =>
      refine (follows_ask permission subject).bind fun granted => ?_
      cases granted with
      | true => exact .refl _
      | false => exact ih
    | _ => exact ih

theorem follows_apply (function : Function) (args : List Json) :
    (apply caller function args).Follows caller other (apply other function args) := by
  cases function with
  | isGranted =>
    cases args with
    | nil => exact .refl _
    | cons first rest =>
      cases first with
      | string permission => exact (follows_ask permission rest.head?).bind fun _ => .refl _
      | array permissions => exact (follows_anyGranted rest.head? permissions).bind fun _ => .refl _
      | _ => exact .refl _
  | isAuthenticated => exact follows_askAuthenticated.bind fun _ => .refl _
  | hasRole =>
    cases args with
    | nil => exact .refl _
    | cons first rest =>
      cases first with
      | string role => exact follows_askRoles.bind fun _ => .refl _
      | _ => exact .refl _

end Function

theorem Environment.follows_lookup (env : Environment) (other : Caller) (name : String) :
    (env.lookup name).Follows env.caller other ({ env with caller := other }.lookup name) := by
  unfold lookup
  split
  · exact .refl _
  · exact follows_askUser.bind fun _ => .refl _
  · exact follows_askRoles.bind fun _ => .refl _
  · exact .refl _

namespace Expr

variable {env : Environment}

theorem follows_evalAll {exprs : List Expr}
    (follow : ∀ expr ∈ exprs,
      (expr.eval env).Follows env.caller other (expr.eval { env with caller := other })) :
    (evalAll env exprs).Follows env.caller other (evalAll { env with caller := other } exprs) := by
  induction exprs with
  | nil => exact .refl _
  | cons first rest ih =>
    obtain ⟨here, later⟩ := List.forall_mem_cons.mp follow
    rw [evalAll, evalAll]
    exact here.bind fun _ => (ih later).bind fun _ => .refl _

theorem follows_eval (expr : Expr) :
    (expr.eval env).Follows env.caller other (expr.eval { env with caller := other }) := by
  induction expr using Expr.induction with
  | literal value =>
    rw [eval, eval]
    exact .refl _
  | list items ih =>
    rw [eval, eval]
    exact (follows_evalAll ih).bind fun _ => .refl _
  | var name =>
    rw [eval, eval]
    exact env.follows_lookup other name
  | member target name ih =>
    rw [eval, eval]
    exact ih.bind fun _ => .refl _
  | methodCall target method args ihTarget ihArgs =>
    rw [eval, eval]
    split
    · exact (Follows.refl _).bind fun function =>
        (follows_evalAll ihArgs).bind fun values => Function.follows_apply function values
    · split
      · exact ihTarget.bind fun _ => .refl _
      · exact .refl _
  | call name args ih =>
    rw [eval, eval]
    exact (Follows.refl _).bind fun function =>
      (follows_evalAll ih).bind fun values => Function.follows_apply function values
  | unary op operand ih =>
    rw [eval, eval]
    exact ih.bind fun _ => .refl _
  | binary op left right ihLeft ihRight =>
    cases op with
    | and =>
      rw [eval, eval]
      refine ihLeft.bind fun value => ?_
      split
      · exact ihRight.bind fun _ => .refl _
      · exact .refl _
    | or =>
      rw [eval, eval]
      refine ihLeft.bind fun value => ?_
      split
      · exact .refl _
      · exact ihRight.bind fun _ => .refl _
    | compare op =>
      rw [eval, eval]
      exact ihLeft.bind fun _ => ihRight.bind fun _ => .refl _

end Expr

/-- A text has the same outcome, by the same consultations in the same order, for another caller who
answers these alike. -/
theorem evaluate_eq_of_answeredAlike {text : String} {env : Environment}
    (alike : ∀ consultation ∈ (evaluate text env).consultations,
      consultation.AnsweredAlike env.caller other) :
    evaluate text { env with caller := other } = evaluate text env := by
  have follows : (evaluateValue text env).Follows env.caller other
      (evaluateValue text { env with caller := other }) :=
    (Follows.refl _).bind fun expr => expr.follows_eval
  exact (follows.bind fun _ => .refl _) alike

end Visibility
