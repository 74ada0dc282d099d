import Visibility.Proofs.Expression.Conjunction

set_option autoImplicit false
set_option relaxedAutoImplicit false

/-!
Expressions that ask for roles only, and callers with more of them.

Such an expression always has a value.  The main statement is that it does not become false for a caller
with more roles.
-/

namespace Visibility

/-- Whether a caller is the same user as another one and has the other's roles, at least. -/
structure RoleHolder.Extends (more holder : RoleHolder) : Prop where
  user : more.user = holder.user
  roles : holder.roles ⊆ more.roles

namespace Expr

/-- Expressions of permissions, roles and literals, without a way to refuse what is granted. -/
inductive AsksRoles : Expr → Prop where
  | literal {value : Literal} : AsksRoles (.literal value)
  | isGranted {permission : String} :
      AsksRoles (.call "is_granted" [.literal (.string permission)])
  | isAnyGranted {permissions : List String} :
      AsksRoles (.call "is_granted"
        [.list (permissions.map fun permission => .literal (.string permission))])
  | hasRole {role : String} : AsksRoles (.call "has_role" [.literal (.string role)])
  | isAuthenticated : AsksRoles (.call "is_authenticated" [])
  | and {left right : Expr} :
      AsksRoles left → AsksRoles right → AsksRoles (.binary .and left right)
  | or {left right : Expr} :
      AsksRoles left → AsksRoles right → AsksRoles (.binary .or left right)

/-- Whether an expression has a value in both environments, which is true in the second one where it
is true in the first one. -/
def Grows (env more : Environment) (expr : Expr) : Prop :=
  ∃ held later, (expr.truth env).result = .ok held ∧ (expr.truth more).result = .ok later ∧
    (held = true → later = true)

variable {env more : Environment} {holder extended : RoleHolder}

theorem grants_mono (extends_ : extended.Extends holder) {permission : String}
    (granted : holder.grants permission = true) : extended.grants permission = true := by
  unfold RoleHolder.grants at granted ⊢
  rw [extends_.user]
  split
  · next authentication => rwa [if_pos authentication] at granted
  · next other =>
    rw [if_neg other] at granted
    split
    · rfl
    · next private_ =>
      rw [if_neg private_] at granted
      simpa using extends_.roles (by simpa using granted)

theorem result_anyGranted (caller : Caller) (subject : Option Json) (permissions : List String) :
    (Function.anyGranted caller subject (permissions.map .string)).result =
      .ok (permissions.any (caller.grants · subject)) := by
  induction permissions with
  | nil => rfl
  | cons permission rest ih =>
    have asked : (Inquiry.ask caller permission subject).result =
        .ok (caller.grants permission subject) := rfl
    rw [List.map_cons, Function.anyGranted, List.any_cons, Inquiry.bind_of_ok asked]
    cases caller.grants permission subject with
    | true => rfl
    | false => exact ih

theorem truth_literal (value : Literal) :
    ((literal value).truth env).result = .ok value.toJson.truthy := rfl

theorem truth_isGranted (permission : String) :
    ((call "is_granted" [.literal (.string permission)]).truth env).result =
      .ok (env.caller.grants permission none) := rfl

theorem truth_isAnyGranted (permissions : List String) :
    ((call "is_granted" [.list (permissions.map fun permission =>
        .literal (.string permission))]).truth env).result =
      .ok (permissions.any (env.caller.grants · none)) := by
  have items : evalAll env (permissions.map fun permission => .literal (.string permission)) =
      pure (permissions.map .string) := by
    induction permissions with
    | nil => rfl
    | cons permission rest ih =>
      rw [List.map_cons, evalAll, ih]
      rfl
  have called : (call "is_granted" [.list (permissions.map fun permission =>
      .literal (.string permission))]).truth env =
        Function.anyGranted env.caller none (permissions.map .string) := by
    have resolved : Inquiry.ofExcept (Function.resolve "is_granted" 1) =
        pure Function.isGranted := rfl
    simp only [truth, eval, evalAll, items, List.length_cons, List.length_nil, resolved,
      pure_bind, Function.apply, List.head?_nil, bind_assoc, Json.truthy, bind_pure]
  rw [called, result_anyGranted]

theorem truth_hasRole (role : String) :
    ((call "has_role" [.literal (.string role)]).truth env).result =
      .ok (env.caller.roles.contains role) := rfl

theorem truth_isAuthenticated :
    ((call "is_authenticated" []).truth env).result = .ok env.caller.authenticated := rfl

theorem Grows.and {left right : Expr} (first : left.Grows env more)
    (second : right.Grows env more) : (binary .and left right).Grows env more := by
  obtain ⟨held, later, came, cameMore, grows⟩ := first
  obtain ⟨heldRight, laterRight, cameRight, cameRightMore, growsRight⟩ := second
  refine ⟨held && heldRight, later && laterRight, ?_, ?_, ?_⟩
  · rw [truth_and, Inquiry.bind_of_ok came]
    cases held with
    | true => exact cameRight
    | false => rfl
  · rw [truth_and, Inquiry.bind_of_ok cameMore]
    cases later with
    | true => exact cameRightMore
    | false => rfl
  · simp only [Bool.and_eq_true]
    exact And.imp grows growsRight

theorem Grows.or {left right : Expr} (first : left.Grows env more)
    (second : right.Grows env more) : (binary .or left right).Grows env more := by
  obtain ⟨held, later, came, cameMore, grows⟩ := first
  obtain ⟨heldRight, laterRight, cameRight, cameRightMore, growsRight⟩ := second
  refine ⟨held || heldRight, later || laterRight, ?_, ?_, ?_⟩
  · rw [truth_or, Inquiry.bind_of_ok came]
    cases held with
    | true => rfl
    | false => exact cameRight
  · rw [truth_or, Inquiry.bind_of_ok cameMore]
    cases later with
    | true => rfl
    | false => exact cameRightMore
  · simp only [Bool.or_eq_true]
    exact Or.imp grows growsRight

theorem AsksRoles.grows {expr : Expr} (asks : expr.AsksRoles) (extends_ : extended.Extends holder)
    (caller : env.caller = holder.toCaller) (callerMore : more.caller = extended.toCaller) :
    expr.Grows env more := by
  have grants {permission : String} (granted : env.caller.grants permission none = true) :
      more.caller.grants permission none = true := by
    rw [caller] at granted
    rw [callerMore]
    exact grants_mono extends_ granted
  induction asks with
  | literal => exact ⟨_, _, truth_literal _, truth_literal _, id⟩
  | isGranted => exact ⟨_, _, truth_isGranted _, truth_isGranted _, grants⟩
  | isAnyGranted =>
    refine ⟨_, _, truth_isAnyGranted _, truth_isAnyGranted _, fun granted => ?_⟩
    obtain ⟨permission, present, held⟩ := List.any_eq_true.mp granted
    exact List.any_eq_true.mpr ⟨permission, present, grants held⟩
  | hasRole =>
    refine ⟨_, _, truth_hasRole _, truth_hasRole _, fun has => ?_⟩
    rw [caller] at has
    rw [callerMore]
    simp only [RoleHolder.toCaller, List.contains_eq_mem, decide_eq_true_eq] at has ⊢
    exact extends_.roles has
  | isAuthenticated =>
    refine ⟨_, _, truth_isAuthenticated, truth_isAuthenticated, fun authenticated => ?_⟩
    rw [caller] at authenticated
    rw [callerMore]
    simp only [RoleHolder.toCaller] at authenticated ⊢
    rw [extends_.user]
    exact authenticated
  | and _ _ first second => exact first.and second
  | or _ _ first second => exact first.or second

end Expr

end Visibility
