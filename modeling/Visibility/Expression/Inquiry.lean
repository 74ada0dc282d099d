import Visibility.Expression.Caller
import Visibility.Expression.Error

set_option autoImplicit false
set_option relaxedAutoImplicit false

/-!
Computations that may consult the caller and may fail.

The result stands beside every consultation of the caller that was made for it, in order.  After a
failed step the caller is not consulted any more.
-/

namespace Visibility

structure Inquiry (α : Type) where
  result : Except ExpressionError α
  consultations : List Consultation

namespace Inquiry

variable {α β : Type}

/-- The permissions asked for, in order. -/
def questions (inquiry : Inquiry α) : List Question :=
  inquiry.consultations.filterMap Consultation.question?

protected def pure (value : α) : Inquiry α := ⟨.ok value, []⟩

protected def bind (first : Inquiry α) (next : α → Inquiry β) : Inquiry β :=
  match first.result with
  | .ok value => ⟨(next value).result, first.consultations ++ (next value).consultations⟩
  | .error error => ⟨.error error, first.consultations⟩

instance : Monad Inquiry where
  pure := Inquiry.pure
  bind := Inquiry.bind

theorem bind_assoc {γ : Type} (first : Inquiry α) (second : α → Inquiry β)
    (third : β → Inquiry γ) :
    (first.bind second).bind third = first.bind fun value => (second value).bind third := by
  obtain ⟨result, consultations⟩ := first
  cases result with
  | error error => rfl
  | ok value =>
    simp only [Inquiry.bind]
    cases (second value).result <;> simp

instance : LawfulMonad Inquiry := LawfulMonad.mk' Inquiry
  (by
    intro α first
    obtain ⟨result, consultations⟩ := first
    cases result <;> simp [Functor.map, Inquiry.bind, Inquiry.pure])
  (by
    intro α β value next
    simp [Bind.bind, Pure.pure, Inquiry.bind, Inquiry.pure])
  (by
    intro α β γ first second third
    exact bind_assoc first second third)

theorem bind_of_ok {first : Inquiry α} {value : α} (came : first.result = .ok value)
    (next : α → Inquiry β) :
    first >>= next = ⟨(next value).result, first.consultations ++ (next value).consultations⟩ := by
  simp [Bind.bind, Inquiry.bind, came]

theorem bind_of_error {first : Inquiry α} {error : ExpressionError}
    (failed : first.result = .error error) (next : α → Inquiry β) :
    first >>= next = ⟨.error error, first.consultations⟩ := by
  simp [Bind.bind, Inquiry.bind, failed]

theorem result_bind_eq_ok_iff {first : Inquiry α} {next : α → Inquiry β} {value : β} :
    (first >>= next).result = .ok value ↔
      ∃ middle, first.result = .ok middle ∧ (next middle).result = .ok value := by
  cases came : first.result with
  | error error => simp [bind_of_error came]
  | ok middle => simp [bind_of_ok came]

def fail (error : ExpressionError) : Inquiry α := ⟨.error error, []⟩

def ofExcept (result : Except ExpressionError α) : Inquiry α := ⟨result, []⟩

def ask (caller : Caller) (permission : String) (subject : Option Json) : Inquiry Bool :=
  ⟨.ok (caller.grants permission subject), [.permission ⟨permission, subject⟩]⟩

def askUser (caller : Caller) : Inquiry (Option Json) := ⟨.ok caller.user, [.user]⟩

def askRoles (caller : Caller) : Inquiry (List String) := ⟨.ok caller.roles, [.roles]⟩

def askAuthenticated (caller : Caller) : Inquiry Bool :=
  ⟨.ok caller.authenticated, [.authenticated]⟩

end Inquiry

end Visibility
