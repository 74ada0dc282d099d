import Visibility.Proofs.Expression.Conjunction
import Visibility.Proofs.Mapping.Occurrence

set_option autoImplicit false
set_option relaxedAutoImplicit false

/-!
Guards joined to one condition.

The condition of guards that are expressions is an expression, which is true where all of them are, and
reads the instance where one of them does.
-/

namespace Visibility

def Holds (env : Environment) (expression : String) : Prop :=
  (evaluate expression env).result = .ok true

/-- Whether a text is taken to read the instance: the name stands in it with a dot right behind. -/
def ReadsInstance (expression : String) : Prop :=
  Text.hasPart "object.".toList expression.toList = true

instance (env : Environment) (expression : String) : Decidable (Holds env expression) :=
  decidable_of_iff ((evaluate expression env).result.toOption = some true) (by
    rw [Holds]
    cases (evaluate expression env).result with
    | error error => simp [Except.toOption]
    | ok held => simp [Except.toOption])

instance (expression : String) : Decidable (ReadsInstance expression) :=
  inferInstanceAs (Decidable (_ = true))

theorem readsInstance_conjoin (inherited expression : String) :
    ReadsInstance (conjoin (some inherited) expression) ↔
      ReadsInstance inherited ∨ ReadsInstance expression := by
  have letters : "object.".toList = ['o', 'b', 'j', 'e', 'c', 't', '.'] := rfl
  simp only [ReadsInstance, Text.hasPart_iff, toList_conjoin, letters]
  have skip {c : Char} {cs : List Char} (absent : c ∉ ['o', 'b', 'j', 'e', 'c', 't', '.']) :
      ['o', 'b', 'j', 'e', 'c', 't', '.'] <:+: c :: cs ↔
        ['o', 'b', 'j', 'e', 'c', 't', '.'] <:+: cs := by
    rw [← List.nil_append (c :: cs), Text.infix_append_cons_iff absent]
    simp
  rw [skip (by decide), Text.infix_append_cons_iff (by decide), skip (by decide),
    skip (by decide), skip (by decide), skip (by decide), skip (by decide), skip (by decide),
    Text.infix_append_cons_iff (by decide)]
  simp

private theorem exists_foldl_conjoin {first : String} {guards : List String}
    (parsed : (Expr.parse? first).isSome)
    (accepted : ∀ guard ∈ guards, (Expr.parse? guard).isSome) :
    ∃ condition,
      guards.foldl (fun inherited expression => some (conjoin inherited expression)) (some first) =
        some condition ∧
      (∀ env, Holds env condition ↔ ∀ guard ∈ first :: guards, Holds env guard) ∧
      (ReadsInstance condition ↔ ∃ guard ∈ first :: guards, ReadsInstance guard) := by
  induction guards generalizing first with
  | nil => exact ⟨first, rfl, by simp, by simp⟩
  | cons second guards ih =>
    obtain ⟨left, parsedFirst⟩ := Option.isSome_iff_exists.mp parsed
    obtain ⟨right, parsedSecond⟩ := Option.isSome_iff_exists.mp (accepted second List.mem_cons_self)
    have parsedBoth : (Expr.parse? (conjoin (some first) second)).isSome := by
      rw [Expr.parse?_conjoin parsedFirst parsedSecond]
      rfl
    obtain ⟨condition, joins, holds, reads⟩ :=
      ih parsedBoth fun guard later => accepted guard (List.mem_cons_of_mem second later)
    refine ⟨condition, joins, fun env => ?_, ?_⟩
    · have both : Holds env (conjoin (some first) second) ↔ Holds env first ∧ Holds env second :=
        evaluate_conjoin_eq_true_iff parsedFirst parsedSecond env
      rw [holds]
      simp only [List.forall_mem_cons, both, and_assoc]
    · rw [reads]
      simp only [List.mem_cons, exists_eq_or_imp, readsInstance_conjoin, or_assoc]

/-- The condition of guards that are expressions is true where all of them are, and reads the
instance where one of them does. -/
theorem condition_of_joined {guards : List String} {condition : String}
    (accepted : ∀ guard ∈ guards, (Expr.parse? guard).isSome)
    (joins : joined guards = some condition) :
    (∀ env, Holds env condition ↔ ∀ guard ∈ guards, Holds env guard) ∧
      (ReadsInstance condition ↔ ∃ guard ∈ guards, ReadsInstance guard) := by
  cases guards with
  | nil => contradiction
  | cons first guards =>
    obtain ⟨found, joinsToo, holds, reads⟩ :=
      exists_foldl_conjoin (accepted first List.mem_cons_self) fun guard later =>
        accepted guard (List.mem_cons_of_mem first later)
    obtain rfl : found = condition := Option.some.inj (joinsToo.symm.trans joins)
    exact ⟨holds, reads⟩

theorem joined_eq_none_iff {guards : List String} : joined guards = none ↔ guards = [] := by
  cases guards with
  | nil => simp [joined]
  | cons first guards =>
    have filled (first : String) : guards.foldl
        (fun inherited expression => some (conjoin inherited expression)) (some first) ≠ none := by
      induction guards generalizing first with
      | nil => exact Option.some_ne_none first
      | cons second guards ih => exact ih _
    simp only [reduceCtorEq, iff_false]
    exact filled first

end Visibility
