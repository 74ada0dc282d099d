import Visibility.Proofs.Expression.Conjunction

set_option autoImplicit false
set_option relaxedAutoImplicit false

/-!
What an arbitrary text does to the condition that it is joined to.

A text that is no expression may close the parenthesis around it, so that the joined text is no longer
a conjunction.  What it spells is the inherited condition under further conjuncts and disjuncts, which
depend on the text alone.  The main statement is that a text leaves every inherited condition in force
exactly when `(false) and (...)` never comes out true; all expressions do.
-/

namespace Visibility

namespace Expr

def chain (op : BinaryOp) (first : Expr) (others : List Expr) : Expr :=
  others.foldl (.binary op) first

private theorem exists_chain_of_andTail {left result : Expr} {ts rest : List Token}
    (reads : Reads (.andTail left result) ts rest) :
    ∃ conjuncts, ∀ other, Reads (.andTail other (chain .and other conjuncts)) ts rest ∧
      result = chain .and left conjuncts := by
  generalize tail : Phrase.andTail left result = phrase at reads
  induction reads generalizing left with
  | @andMore _ right _ _ _ _ head _ _ ih =>
    cases tail
    obtain ⟨conjuncts, readsTail⟩ := ih rfl
    refine ⟨right :: conjuncts, fun other => ⟨?_, (readsTail other).2⟩⟩
    exact .andMore head (readsTail (.binary .and other right)).1
  | andEnd ended =>
    cases tail
    exact ⟨[], fun other => ⟨.andEnd ended, rfl⟩⟩
  | _ => cases tail

private theorem exists_chain_of_orTail {left result : Expr} {ts rest : List Token}
    (reads : Reads (.orTail left result) ts rest) :
    ∃ disjuncts, ∀ other, Reads (.orTail other (chain .or other disjuncts)) ts rest ∧
      result = chain .or left disjuncts := by
  generalize tail : Phrase.orTail left result = phrase at reads
  induction reads generalizing left with
  | @orMore _ right _ _ _ _ head _ _ ih =>
    cases tail
    obtain ⟨disjuncts, readsTail⟩ := ih rfl
    refine ⟨right :: disjuncts, fun other => ⟨?_, (readsTail other).2⟩⟩
    exact .orMore head (readsTail (.binary .or other right)).1
  | orEnd ended =>
    cases tail
    exact ⟨[], fun other => ⟨.orEnd ended, rfl⟩⟩
  | _ => cases tail

/-- What a joined text spells is the inherited condition under conjuncts and then disjuncts that
depend on the added text alone. -/
theorem exists_chain_of_parse?_conjoin {inherited expression : String} {left whole : Expr}
    (first : parse? inherited = some left)
    (joined : parse? (conjoin (some inherited) expression) = some whole) :
    ∃ conjuncts disjuncts, whole = chain .or (chain .and left conjuncts) disjuncts ∧
      ∀ (inherited : String) (left : Expr), parse? inherited = some left →
        parse? (conjoin (some inherited) expression) =
          some (chain .or (chain .and left conjuncts) disjuncts) := by
  obtain ⟨ts, scanned, readsLeft⟩ := parse?_eq_some_iff.mp first
  obtain ⟨us, scannedWhole, readsWhole⟩ := parse?_eq_some_iff.mp joined
  rw [scan_conjoin scanned, Option.map_eq_some_iff] at scannedWhole
  obtain ⟨more, scannedMore, rfl⟩ := scannedWhole
  cases readsWhole with
  | expression readsHead readsOr =>
    cases readsHead with
    | conjunction readsFirst readsAnd =>
      -- the condition between the first parentheses is read whole, whatever follows `and`
      have between : Reads (.comparing left)
          (.openParen :: (ts ++ .closeParen :: .and :: .openParen :: more))
          (.and :: .openParen :: more) := reads_parens readsLeft (fun _ _ => nofun) rfl
      obtain ⟨rfl, rfl⟩ := between.comparing_unique readsFirst
      obtain ⟨conjuncts, chainAnd⟩ := exists_chain_of_andTail readsAnd
      obtain ⟨disjuncts, chainOr⟩ := exists_chain_of_orTail readsOr
      have head := (chainAnd left).2
      refine ⟨conjuncts, disjuncts, head ▸ (chainOr left).2, fun other tree parsed => ?_⟩
      obtain ⟨vs, scannedOther, readsOther⟩ := parse?_eq_some_iff.mp parsed
      refine parse?_eq_some_iff.mpr ⟨_, by rw [scan_conjoin scannedOther, scannedMore]; rfl, ?_⟩
      exact .expression
        (.conjunction (reads_parens readsOther (fun _ _ => nofun) rfl) (chainAnd tree).1)
        (chainOr (chain .and tree conjuncts)).1

section Truth

variable {env : Environment}

theorem truth_of_truth_and {left right : Expr} {held : Bool}
    (came : ((binary .and left right).truth env).result = .ok held) :
    (left.truth env).result = .ok false ∧ held = false ∨ (left.truth env).result = .ok true := by
  rw [truth_and, Inquiry.result_bind_eq_ok_iff] at came
  obtain ⟨first, one, two⟩ := came
  cases first with
  | false =>
    cases two
    exact .inl ⟨one, rfl⟩
  | true => exact .inr one

theorem truth_and_of_false {left : Expr} (refused : (left.truth env).result = .ok false)
    (right : Expr) : ((binary .and left right).truth env).result = .ok false := by
  rw [truth_and, Inquiry.result_bind_eq_ok_iff]
  exact ⟨false, refused, rfl⟩

theorem truth_or_of_true {left : Expr} (held : (left.truth env).result = .ok true)
    (right : Expr) : ((binary .or left right).truth env).result = .ok true := by
  rw [truth_or, Inquiry.result_bind_eq_ok_iff]
  exact ⟨true, held, rfl⟩

theorem truth_or_of_false {left : Expr} (refused : (left.truth env).result = .ok false)
    (right : Expr) : ((binary .or left right).truth env).result = (right.truth env).result := by
  rw [truth_or, Inquiry.bind_of_ok refused]
  rfl

theorem truth_chain_and_of_false {first : Expr} (refused : (first.truth env).result = .ok false)
    (others : List Expr) : ((chain .and first others).truth env).result = .ok false := by
  induction others generalizing first with
  | nil => exact refused
  | cons next others ih => exact ih (truth_and_of_false refused next)

theorem truth_chain_or_of_true {first : Expr} (held : (first.truth env).result = .ok true)
    (others : List Expr) : ((chain .or first others).truth env).result = .ok true := by
  induction others generalizing first with
  | nil => exact held
  | cons next others ih => exact ih (truth_or_of_true held next)

theorem truth_of_truth_chain_and {first : Expr} {others : List Expr} {held : Bool}
    (came : ((chain .and first others).truth env).result = .ok held) :
    (first.truth env).result = .ok false ∧ held = false ∨ (first.truth env).result = .ok true := by
  induction others generalizing first with
  | nil =>
    cases held with
    | false => exact .inl ⟨came, rfl⟩
    | true => exact .inr came
  | cons next others ih =>
    rcases ih came with ⟨refused, rfl⟩ | joined
    · exact truth_of_truth_and refused
    · rcases truth_of_truth_and joined with ⟨_, impossible⟩ | one
      · contradiction
      · exact .inr one

theorem truth_of_truth_chain_or {first : Expr} {others : List Expr}
    (held : ((chain .or first others).truth env).result = .ok true) :
    (first.truth env).result = .ok true ∨
      (first.truth env).result = .ok false ∧
        ∀ other : Expr, (other.truth env).result = .ok false →
          ((chain .or other others).truth env).result = .ok true := by
  induction others generalizing first with
  | nil => exact .inl held
  | cons next others ih =>
    rcases ih held with joined | ⟨joined, stays⟩
    · rw [truth_or, Inquiry.result_bind_eq_ok_iff] at joined
      obtain ⟨one, came, two⟩ := joined
      cases one with
      | true => exact .inl came
      | false =>
        refine .inr ⟨came, fun other refused => truth_chain_or_of_true ?_ others⟩
        rw [truth_or_of_false refused]
        exact two
    · rw [truth_or, Inquiry.result_bind_eq_ok_iff] at joined
      obtain ⟨one, came, two⟩ := joined
      cases one with
      | true => cases two
      | false =>
        refine .inr ⟨came, fun other refused => stays (.binary .or other next) ?_⟩
        rw [truth_or_of_false refused]
        exact two

end Truth

end Expr

theorem Expr.parse?_false : parse? "false" = some (.literal (.bool false)) := by
  have scanned : Token.scan "false".toList = some [.false] := by decide +kernel
  exact parse?_of_scan scanned rfl

/-- Whether an added text leaves every inherited condition in force: where the joined text comes out
true, so does the condition. -/
def Narrows (expression : String) (env : Environment) : Prop :=
  ∀ inherited : String, (Expr.parse? inherited).isSome →
    (evaluate (conjoin (some inherited) expression) env).result = .ok true →
    (evaluate inherited env).result = .ok true

theorem evaluate_false (env : Environment) : (evaluate "false" env).result = .ok false := by
  rw [evaluate_of_parse? Expr.parse?_false]
  rfl

theorem evaluate_conjoin_false {inherited expression : String} {env : Environment} {left : Expr}
    (parsed : Expr.parse? inherited = some left)
    (joined : (evaluate (conjoin (some inherited) expression) env).result = .ok true) :
    (evaluate inherited env).result = .ok true ∨
      (evaluate (conjoin (some "false") expression) env).result = .ok true := by
  obtain ⟨whole, parsedWhole⟩ := exists_parse?_of_evaluate joined
  obtain ⟨conjuncts, disjuncts, rfl, shape⟩ :=
    Expr.exists_chain_of_parse?_conjoin parsed parsedWhole
  rw [evaluate_of_parse? parsedWhole] at joined
  rw [evaluate_of_parse? parsed, evaluate_of_parse? (shape "false" _ Expr.parse?_false)]
  have refused : ((Expr.literal (.bool false)).truth env).result = .ok false := rfl
  rcases Expr.truth_of_truth_chain_or joined with held | ⟨_, stays⟩
  · rcases Expr.truth_of_truth_chain_and held with ⟨_, impossible⟩ | first
    · contradiction
    · exact .inl first
  · exact .inr (stays _ (Expr.truth_chain_and_of_false refused conjuncts))

theorem not_evaluate_conjoin_false {expression : String} {right : Expr}
    (parsed : Expr.parse? expression = some right) (env : Environment) :
    (evaluate (conjoin (some "false") expression) env).result = .ok false := by
  rw [evaluate_conjoin Expr.parse?_false parsed, Inquiry.bind_of_ok (evaluate_false env)]
  rfl

/-- In any environment, a text leaves all inherited conditions in force exactly when it does not come
out true behind `false`; a text that is an expression by itself always does. -/
theorem narrows_iff (expression : String) (env : Environment) :
    (Narrows expression env ↔
      (evaluate (conjoin (some "false") expression) env).result ≠ .ok true) ∧
      ((Expr.parse? expression).isSome → Narrows expression env) := by
  have enough (never : (evaluate (conjoin (some "false") expression) env).result ≠ .ok true) :
      Narrows expression env := by
    intro inherited accepted joined
    obtain ⟨left, parsed⟩ := Option.isSome_iff_exists.mp accepted
    exact (evaluate_conjoin_false parsed joined).resolve_right never
  refine ⟨⟨fun narrows joined => ?_, enough⟩, fun accepted => enough fun joined => ?_⟩
  · have accepted : (Expr.parse? "false").isSome := by
      rw [Expr.parse?_false]
      rfl
    have held := narrows "false" accepted joined
    rw [evaluate_false] at held
    cases held
  · obtain ⟨right, parsed⟩ := Option.isSome_iff_exists.mp accepted
    rw [not_evaluate_conjoin_false parsed] at joined
    cases joined

/-- A text that closes the parenthesis around it puts the condition before it out of force. -/
theorem not_narrows_of_closing :
    (Scope.mk "Book" "item.normalization.get").expression Segment.securityKey
        (.string "true) or (true") = .ok "true) or (true" ∧
      ¬ ∀ env : Environment, Narrows "true) or (true" env := by
  refine ⟨rfl, fun narrows => ?_⟩
  have scanned : Token.scan (conjoin (some "false") "true) or (true").toList =
      some [.openParen, .false, .closeParen, .and, .openParen, .true, .closeParen, .or, .openParen,
        .true, .closeParen] := by decide +kernel
  have joined : Expr.parse? (conjoin (some "false") "true) or (true") =
      some (.binary .or (.binary .and (.literal (.bool false)) (.literal (.bool true)))
        (.literal (.bool true))) := Expr.parse?_of_scan scanned rfl
  let env : Environment := { object := none, caller := RoleHolder.anonymous.toCaller }
  have whole : (evaluate (conjoin (some "false") "true) or (true") env).result = .ok true := by
    rw [evaluate_of_parse? joined]
    rfl
  have accepted : (Expr.parse? "false").isSome := by
    rw [Expr.parse?_false]
    rfl
  have held := narrows env "false" accepted whole
  rw [evaluate_false] at held
  cases held

end Visibility
