import Visibility.Expression.Evaluation
import Visibility.Proofs.Number.Binary64

set_option autoImplicit false
set_option relaxedAutoImplicit false

/-!
Integers in the comparisons of expressions.

Loose equality and the order take integers as floats.  The main statement is that they compare the
nearest integers of 53 significant bits.
-/

namespace Visibility

open Number

/-- The orders of two integers for which an operator holds, where it is one of loose equality or of
order. -/
def Comparison.accepts? : Comparison → Option (Ordering → Bool)
  | .eq => some Ordering.isEq
  | .notEq => some Ordering.isNe
  | .lt => some Ordering.isLT
  | .le => some Ordering.isLE
  | .gt => some Ordering.isGT
  | .ge => some Ordering.isGE
  | _ => none

variable {a b : Int}

theorem looseEq_int (first : Fits a) (second : Fits b) :
    looseEq (.int a) (.int b) = (compare (nearest a) (nearest b)).isEq := by
  have test : looseEq (.int a) (.int b) = (floatOfInt a == floatOfInt b) := rfl
  rw [test, floatOfInt_beq first second]

theorem order_int (first : Fits a) (second : Fits b) :
    order (.int a) (.int b) = .ok (compare (nearest a) (nearest b)) := by
  have test : order (.int a) (.int b) =
      if floatOfInt a < floatOfInt b then .ok .lt
      else if floatOfInt a == floatOfInt b then .ok .eq
      else if floatOfInt b < floatOfInt a then .ok .gt
      else .error .unorderedNaN := rfl
  rw [test, floatOfInt_beq first second]
  simp only [floatOfInt_lt first second, floatOfInt_lt second first]
  rcases lt_trichotomy (nearest a) (nearest b) with less | same | more
  · rw [compare_lt_iff_lt.mpr less]
    rfl
  · rw [same, compare_eq_iff_eq.mpr rfl]
    rfl
  · rw [compare_gt_iff_gt.mpr more, compare_lt_iff_lt.mpr more]
    rfl

theorem test_int {op : Comparison} {accepts : Ordering → Bool} (accepting : op.accepts? = some accepts)
    (first : Fits a) (second : Fits b) :
    op.test (.int a) (.int b) = .ok (accepts (compare (nearest a) (nearest b))) := by
  have loose := looseEq_int first second
  have ordered := order_int first second
  cases op <;> cases accepting
  case eq => exact congrArg Except.ok loose
  case notEq =>
    unfold Comparison.test
    rw [loose]
    cases compare (nearest a) (nearest b) <;> rfl
  all_goals
    unfold Comparison.test
    rw [ordered]
    rfl

theorem test_isIn_int {bs : List Int} (first : Fits a) (items : ∀ b ∈ bs, Fits b) :
    Comparison.test .isIn (.int a) (.array (bs.map .int)) =
      .ok (bs.any fun b => nearest a == nearest b) := by
  have found : (bs.map Json.int).any (looseEq (.int a)) =
      bs.any fun b => nearest a == nearest b := by
    rw [List.any_map, Bool.eq_iff_iff, List.any_eq_true, List.any_eq_true]
    refine exists_congr fun b => and_congr_right fun item => ?_
    rw [Function.comp_apply, looseEq_int first (items b item), Ordering.isEq_iff_eq_eq,
      compare_eq_iff_eq, beq_iff_eq]
  exact congrArg Except.ok found

theorem result_eval_compare {env : Environment} {op : Comparison} {left right : Expr} {x y : Json}
    {held : Bool} (first : (left.eval env).result = .ok x) (second : (right.eval env).result = .ok y)
    (test : op.test x y = .ok held) :
    ((Expr.binary (.compare op) left right).eval env).result = .ok (.bool held) := by
  rw [Expr.eval, Inquiry.bind_of_ok first, Inquiry.bind_of_ok second, test]
  rfl

/-- Expressions compare and look up the nearest integers of 53 significant bits.  Their operators go by
the integers themselves exactly when the two sides are equal or do not come together, as they never do
when one of them is below `2 ^ 53`. -/
theorem eval_compare_int (env : Environment) (left right list : Expr) {bs : List Int}
    (first : Fits a) (second : Fits b) (items : ∀ b ∈ bs, Fits b)
    (leftValue : (left.eval env).result = .ok (.int a))
    (rightValue : (right.eval env).result = .ok (.int b))
    (listValue : (list.eval env).result = .ok (.array (bs.map .int))) :
    (∀ op accepts, Comparison.accepts? op = some accepts →
      ((Expr.binary (.compare op) left right).eval env).result =
        .ok (.bool (accepts (compare (nearest a) (nearest b))))) ∧
    ((Expr.binary (.compare .isIn) left list).eval env).result =
      .ok (.bool (bs.any fun b => nearest a == nearest b)) ∧
    ((∀ op accepts, Comparison.accepts? op = some accepts →
      ((Expr.binary (.compare op) left right).eval env).result =
        .ok (.bool (accepts (compare a b)))) ↔
      (nearest a = nearest b → a = b)) ∧
    (a.natAbs < 2 ^ 53 ∨ b.natAbs < 2 ^ 53 → nearest a = nearest b → a = b) := by
  have compared : ∀ op accepts, Comparison.accepts? op = some accepts →
      ((Expr.binary (.compare op) left right).eval env).result =
        .ok (.bool (accepts (compare (nearest a) (nearest b)))) := by
    intro op accepts accepting
    exact result_eval_compare leftValue rightValue (test_int accepting first second)
  refine ⟨compared, result_eval_compare leftValue listValue (test_isIn_int first items), ?_,
    eq_of_nearest_eq⟩
  constructor
  · intro exact_ together
    have equal := exact_ .eq Ordering.isEq rfl
    rw [compared .eq Ordering.isEq rfl, compare_eq_iff_eq.mpr together] at equal
    have held : true = (compare a b).isEq := by
      injection equal with equal
      injection equal
    exact compare_eq_iff_eq.mp (Ordering.isEq_iff_eq_eq.mp held.symm)
  · intro apart op accepts accepting
    rw [compared op accepts accepting, compare_nearest_iff.mpr apart]

/-- A user and an instance whose identifiers differ and share a float. -/
def neighbours : Environment where
  object := some (.object [("id", .int (2 ^ 53 + 1))])
  caller := ({ user := some (.object [("id", .int (2 ^ 53))]) } : RoleHolder).toCaller

def idOf (name : String) : Expr := .member (.var name) "id"

/-- The identifiers are found to be equal, the larger one not to be larger. -/
theorem eval_compare_int_neighbours :
    Fits (2 ^ 53 + 1) ∧ Fits (2 ^ 53) ∧
      ((idOf "object").eval neighbours).result = .ok (.int (2 ^ 53 + 1)) ∧
      ((idOf "user").eval neighbours).result = .ok (.int (2 ^ 53)) ∧
      ((Expr.list [idOf "user"]).eval neighbours).result = .ok (.array [.int (2 ^ 53)]) ∧
      ((Expr.binary (.compare .gt) (idOf "object") (idOf "user")).eval neighbours).result =
        .ok (.bool false) ∧
      ((Expr.binary (.compare .isIn) (idOf "object") (.list [idOf "user"])).eval neighbours).result =
        .ok (.bool true) := by
  have fits : Fits (2 ^ 53 + 1) := ⟨by decide, by decide⟩
  have fitsOther : Fits (2 ^ 53) := ⟨by decide, by decide⟩
  have together : nearest (2 ^ 53 + 1) = nearest (2 ^ 53) := by decide
  have items : ∀ b ∈ [2 ^ 53], Fits b := by
    intro b item
    rwa [List.eq_of_mem_singleton item]
  have compared := eval_compare_int neighbours (idOf "object") (idOf "user") (.list [idOf "user"])
    fits fitsOther items rfl rfl rfl
  refine ⟨fits, fitsOther, rfl, rfl, rfl, ?_, ?_⟩
  · rw [compared.1 .gt Ordering.isGT rfl, together, compare_eq_iff_eq.mpr rfl]
    rfl
  · rw [compared.2.1, List.any_cons, together, beq_self_eq_true]
    rfl

theorem not_forall_eval_eq :
    ¬∀ (env : Environment) (left right : Expr) (a b : Int), Fits a → Fits b →
      (left.eval env).result = .ok (.int a) → (right.eval env).result = .ok (.int b) →
      ((Expr.binary (.compare .eq) left right).eval env).result = .ok (.bool (a == b)) := by
  intro exact_
  have fits : Fits (2 ^ 53 + 1) := ⟨by decide, by decide⟩
  have fitsOther : Fits (2 ^ 53) := ⟨by decide, by decide⟩
  have together : nearest (2 ^ 53 + 1) = nearest (2 ^ 53) := by decide
  have equal : Comparison.eq.test (.int (2 ^ 53 + 1)) (.int (2 ^ 53)) = .ok true := by
    rw [test_int rfl fits fitsOther, together, compare_eq_iff_eq.mpr rfl]
    rfl
  have claimed := exact_ neighbours (idOf "object") (idOf "user") _ _ fits fitsOther rfl rfl
  rw [result_eval_compare rfl rfl equal] at claimed
  cases claimed

end Visibility
