import Mathlib.Data.List.Basic
import Visibility.Expression.Evaluator

set_option autoImplicit false
set_option relaxedAutoImplicit false

/-!
Evaluators that are called again and again.

What is kept between two calls is the cache, and it only ever holds the trees of the texts that were
asked for and have one.  The main statement is that no history shows in an answer.
-/

namespace Visibility.Evaluator

inductive Call where
  | value (text : String) (env : Environment)
  | truth (text : String) (env : Environment)

def Call.text : Call → String
  | .value text _ | .truth text _ => text

inductive Answer where
  | value (outcome : Inquiry Json)
  | truth (outcome : Inquiry Bool)

/-- The answer that needs no evaluator: the text is read and its tree evaluated. -/
def Call.direct : Call → Answer
  | .value text env => .value (Visibility.evaluateValue text env)
  | .truth text env => .truth (Visibility.evaluate text env)

def answer (evaluator : Evaluator) : Call → Answer × Evaluator
  | .value text env =>
    let (outcome, after) := evaluator.evaluateValue text env
    (.value outcome, after)
  | .truth text env =>
    let (outcome, after) := evaluator.evaluate text env
    (.truth outcome, after)

/-- The answers to calls that come one after another, each with the evaluator after it. -/
def run (evaluator : Evaluator) : List Call → List (Answer × Evaluator)
  | [] => []
  | call :: calls => evaluator.answer call :: run (evaluator.answer call).2 calls

/-- Whether the cache holds the trees of some texts, as far as they have one, and no others. -/
def Caches (evaluator : Evaluator) (texts : List String) : Prop :=
  ∀ text, evaluator.cache.get? text = if text ∈ texts then Expr.parse? text else none

variable {evaluator : Evaluator} {texts : List String}

theorem caches_nil : ({} : Evaluator).Caches [] := by
  intro text
  simp

theorem Caches.parsed (caches : evaluator.Caches texts) (text : String) :
    (evaluator.parsed text).1 = Expr.parse text ∧
      (evaluator.parsed text).2.Caches (text :: texts) := by
  have known := caches text
  rw [Evaluator.parsed, Expr.parse]
  cases hit : evaluator.cache.get? text with
  | some expr =>
    rw [hit] at known
    obtain ⟨_, tree⟩ := Option.ite_none_right_eq_some.mp known.symm
    rw [tree]
    refine ⟨rfl, fun other => ?_⟩
    by_cases same : other = text
    · simp [same, hit, tree]
    · simp [same, caches other]
  | none =>
    cases tree : Expr.parse? text with
    | some expr =>
      refine ⟨rfl, fun other => ?_⟩
      rw [Dict.get?_insert]
      by_cases same : other = text
      · simp [same, tree]
      · simp [same, caches other]
    | none =>
      refine ⟨rfl, fun other => ?_⟩
      by_cases same : other = text
      · simp [same, hit, tree]
      · simp [same, caches other]

theorem Caches.answer (caches : evaluator.Caches texts) (call : Call) :
    (evaluator.answer call).1 = call.direct ∧
      (evaluator.answer call).2.Caches (call.text :: texts) := by
  cases call with
  | value text env =>
    obtain ⟨read, kept⟩ := caches.parsed text
    refine ⟨?_, kept⟩
    simp only [Evaluator.answer, Evaluator.evaluateValue, Call.direct, Visibility.evaluateValue, read]
  | truth text env =>
    obtain ⟨read, kept⟩ := caches.parsed text
    refine ⟨?_, kept⟩
    simp only [Evaluator.answer, Evaluator.evaluate, Evaluator.evaluateValue, Call.direct,
      Visibility.evaluate, Visibility.evaluateValue, read]

theorem answer_fresh (call : Call) : (({} : Evaluator).answer call).1 = call.direct :=
  (caches_nil.answer call).1

theorem Caches.answers_run (caches : evaluator.Caches texts) (calls : List Call) :
    (evaluator.run calls).map Prod.fst = calls.map Call.direct := by
  induction calls generalizing evaluator texts with
  | nil => rfl
  | cons call calls ih =>
    obtain ⟨direct, kept⟩ := caches.answer call
    rw [run, List.map_cons, List.map_cons, direct, ih kept]

theorem Caches.run {calls : List Call} {count : Nat} {after : Answer × Evaluator}
    (caches : evaluator.Caches texts) (reached : (evaluator.run calls)[count]? = some after) :
    after.2.Caches (((calls.take (count + 1)).map Call.text).reverse ++ texts) := by
  induction calls generalizing evaluator texts count with
  | nil => simp [Evaluator.run] at reached
  | cons call calls ih =>
    have kept := (caches.answer call).2
    rw [Evaluator.run] at reached
    cases count with
    | zero =>
      cases reached
      simpa using kept
    | succ count =>
      rw [List.getElem?_cons_succ] at reached
      simpa using ih kept reached

/-- Whatever calls an evaluator has had, it answers each of them as a fresh one does.  After every call,
the cache holds the trees of the texts that were asked for up to then, each under its text, as far as
they have one, and nothing else. -/
theorem answers_run_eq_fresh (calls : List Call) :
    (({} : Evaluator).run calls).map Prod.fst =
        calls.map (fun call => (({} : Evaluator).answer call).1) ∧
      ∀ (count : Nat) (after : Answer × Evaluator),
        (({} : Evaluator).run calls)[count]? = some after →
        ∀ text, after.2.cache.get? text =
          if text ∈ (calls.take (count + 1)).map Call.text then Expr.parse? text else none := by
  constructor
  · simp only [answer_fresh]
    exact caches_nil.answers_run calls
  · intro count after reached text
    simpa using caches_nil.run reached text

def bareEnvironment : Environment where
  object := none
  caller := RoleHolder.anonymous.toCaller

def brokenCalls : List Call :=
  [.value "1 < 2" bareEnvironment, .truth "(1" bareEnvironment, .truth "1 < 2" bareEnvironment]

theorem answers_run_eq_fresh_brokenCalls :
    ∃ after, (({} : Evaluator).run brokenCalls)[2]? = some after ∧
      (∃ expr, Expr.parse? "1 < 2" = some expr ∧ after.2.cache.get? "1 < 2" = some expr) ∧
      after.2.cache.get? "(1" = none := by
  obtain ⟨after, reached⟩ : ∃ after, (({} : Evaluator).run brokenCalls)[2]? = some after := ⟨_, rfl⟩
  have cached := (answers_run_eq_fresh brokenCalls).2 2 after reached
  obtain ⟨expr, tree⟩ : ∃ expr, Expr.parse? "1 < 2" = some expr :=
    Option.isSome_iff_exists.mp (by decide +kernel)
  have broken : Expr.parse? "(1" = none := Option.isNone_iff_eq_none.mp (by decide +kernel)
  refine ⟨after, reached, ⟨expr, tree, ?_⟩, ?_⟩
  · have asked : "1 < 2" ∈ (brokenCalls.take 3).map Call.text := List.mem_cons_self
    rw [cached, if_pos asked, tree]
  · rw [cached, broken, ite_self]

end Visibility.Evaluator
