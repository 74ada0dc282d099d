import Visibility.Expression.Evaluator
import Visibility.Mapping.Walk
import Visibility.Proofs.Expression.Grammar
import Visibility.Proofs.Expression.Scanning

set_option autoImplicit false
set_option relaxedAutoImplicit false

/-!
Conditions joined as text, `(inherited) and (expression)`.

The main statement is that two expressions joined as text are their conjunction: for the parser, and
for the evaluation with its errors and its consultations of the caller.
-/

namespace Visibility

namespace Expr

/-- How true a tree is, with the consultations of the caller that are made to find out. -/
def truth (env : Environment) (expr : Expr) : Inquiry Bool := do
  let value ← expr.eval env
  return value.truthy

theorem truth_and (env : Environment) (left right : Expr) :
    (binary .and left right).truth env =
      left.truth env >>= fun held => if held then right.truth env else pure false := by
  simp only [truth, eval, bind_assoc, pure_bind]
  congr 1
  funext value
  cases value.truthy <;> simp [Json.truthy]

theorem truth_or (env : Environment) (left right : Expr) :
    (binary .or left right).truth env =
      left.truth env >>= fun held => if held then pure true else right.truth env := by
  simp only [truth, eval, bind_assoc, pure_bind]
  congr 1
  funext value
  cases value.truthy <;> simp [Json.truthy]

theorem parse?_eq_some_iff {text : String} {expr : Expr} :
    parse? text = some expr ↔
      ∃ ts, Token.scan text.toList = some ts ∧ Reads (.expression expr) ts [] := by
  simp only [parse?, Option.bind_eq_bind, Option.bind_eq_some_iff, ofTokens?_eq_some_iff]

theorem parse?_of_scan {text : String} {ts : List Token} {expr : Expr}
    (scanned : Token.scan text.toList = some ts) (read : ofTokens? ts = some expr) :
    parse? text = some expr := by
  rw [parse?, scanned]
  exact read

theorem reads_parens {expr : Expr} {ts rest : List Token}
    (reads : Reads (.expression expr) ts [])
    (noMember : ∀ name more, rest ≠ .dot :: .name name :: more)
    (noOperator : comparison? rest = none) :
    Reads (.comparing expr) (.openParen :: (ts ++ .closeParen :: rest)) rest := by
  have closed : Reads (.expression expr) (ts ++ .closeParen :: rest) (.closeParen :: rest) :=
    reads.append_stop rfl rest
  exact .operand (.postfixed (.parens closed) (.postfixEnd noMember)) noOperator

end Expr

theorem toList_conjoin (inherited expression : String) :
    (conjoin (some inherited) expression).toList =
      '(' :: (inherited.toList ++
        ')' :: ' ' :: 'a' :: 'n' :: 'd' :: ' ' :: '(' :: (expression.toList ++ [')'])) := by
  simp [conjoin]

theorem scan_conjoin {inherited : String} {ts : List Token}
    (scanned : Token.scan inherited.toList = some ts) (expression : String) :
    Token.scan (conjoin (some inherited) expression).toList =
      (Token.scan (expression.toList ++ [')'])).map fun more =>
        .openParen :: (ts ++ .closeParen :: .and :: .openParen :: more) := by
  have opening (cs : List Char) : Token.scan ('(' :: cs) = (Token.scan cs).map (.openParen :: ·) :=
    Token.scan_of_next? rfl (by decide) (by simp)
  have closing (cs : List Char) :
      Token.scan (')' :: cs) = (Token.scan cs).map (.closeParen :: ·) :=
    Token.scan_of_next? rfl (by decide) (by simp)
  have blank (cs : List Char) : Token.scan (' ' :: cs) = Token.scan cs := by
    rw [Token.scan.eq_2, if_pos (by decide)]
  have joining (cs : List Char) :
      Token.scan ('a' :: 'n' :: 'd' :: ' ' :: cs) = (Token.scan cs).map (.and :: ·) := by
    have word : Token.next? ('a' :: 'n' :: 'd' :: ' ' :: cs) = some (.and, ' ' :: cs) := rfl
    rw [Token.scan_of_next? word (by decide) (by simp), blank]
  rw [toList_conjoin, opening, Token.scan_append (by decide) scanned, closing, blank, joining, opening]
  simp only [Option.map_map, Function.comp_def]

namespace Expr

theorem parse?_conjoin {inherited expression : String} {left right : Expr}
    (first : parse? inherited = some left) (second : parse? expression = some right) :
    parse? (conjoin (some inherited) expression) = some (.binary .and left right) := by
  obtain ⟨ts, scanned, readsLeft⟩ := parse?_eq_some_iff.mp first
  obtain ⟨us, scannedRight, readsRight⟩ := parse?_eq_some_iff.mp second
  have closing : Token.scan [')'] = some [.closeParen] := by decide +kernel
  have atEnd : Token.scan (expression.toList ++ [')']) = some (us ++ [.closeParen]) := by
    rw [Token.scan_append (by decide) scannedRight, closing]
    rfl
  refine parse?_eq_some_iff.mpr ⟨_, by rw [scan_conjoin scanned, atEnd]; rfl, ?_⟩
  let second : List Token := .openParen :: (us ++ [.closeParen])
  have one : Reads (.comparing left) (.openParen :: (ts ++ .closeParen :: .and :: second))
      (.and :: second) :=
    reads_parens readsLeft (fun _ _ => nofun) rfl
  have two : Reads (.comparing right) second [] :=
    reads_parens readsRight (fun _ _ => nofun) rfl
  exact .expression (.conjunction one (.andMore two (.andEnd fun _ => nofun)))
    (.orEnd fun _ => nofun)

end Expr

theorem evaluate_of_parse? {text : String} {expr : Expr} (parsed : Expr.parse? text = some expr)
    (env : Environment) : evaluate text env = expr.truth env := by
  have found : Inquiry.ofExcept (Expr.parse text) = pure expr := by
    rw [Expr.parse, parsed]
    rfl
  simp only [evaluate, evaluateValue, found, pure_bind, Expr.truth]

theorem exists_parse?_of_evaluate {text : String} {env : Environment} {held : Bool}
    (came : (evaluate text env).result = .ok held) : ∃ expr, Expr.parse? text = some expr := by
  cases parsed : Expr.parse? text with
  | some expr => exact ⟨expr, rfl⟩
  | none =>
    have failed : (evaluate text env).result = .error (.notParsed text) := by
      simp [evaluate, evaluateValue, Expr.parse, parsed, Inquiry.ofExcept, Bind.bind, Inquiry.bind]
    rw [failed] at came
    contradiction

theorem evaluate_conjoin {inherited expression : String} {left right : Expr}
    (first : Expr.parse? inherited = some left) (second : Expr.parse? expression = some right)
    (env : Environment) :
    evaluate (conjoin (some inherited) expression) env =
      evaluate inherited env >>= fun held =>
        if held then evaluate expression env else pure false := by
  rw [evaluate_of_parse? (Expr.parse?_conjoin first second), evaluate_of_parse? first,
    evaluate_of_parse? second, Expr.truth_and]

theorem evaluate_conjoin_eq_true_iff {inherited expression : String} {left right : Expr}
    (first : Expr.parse? inherited = some left) (second : Expr.parse? expression = some right)
    (env : Environment) :
    (evaluate (conjoin (some inherited) expression) env).result = .ok true ↔
      (evaluate inherited env).result = .ok true ∧ (evaluate expression env).result = .ok true := by
  rw [evaluate_conjoin first second, Inquiry.result_bind_eq_ok_iff]
  constructor
  · rintro ⟨held, one, two⟩
    cases held with
    | false => cases two
    | true => exact ⟨one, two⟩
  · rintro ⟨one, two⟩
    exact ⟨true, one, two⟩

/-- Two expressions joined as text are their conjunction.  The joined text is true exactly where both
are, fails as the first one does, and consults the caller for the second one only after all that the
first one asks, and only where the first one came out true. -/
theorem conjoin_conjunction {inherited expression : String} {left right : Expr}
    (first : Expr.parse? inherited = some left) (second : Expr.parse? expression = some right) :
    Expr.parse? (conjoin (some inherited) expression) = some (.binary .and left right) ∧
      ∀ env : Environment,
        ((evaluate (conjoin (some inherited) expression) env).result = .ok true ↔
          (evaluate inherited env).result = .ok true ∧
            (evaluate expression env).result = .ok true) ∧
        (∀ error, (evaluate inherited env).result = .error error →
          evaluate (conjoin (some inherited) expression) env =
            ⟨.error error, (evaluate inherited env).consultations⟩) ∧
        ((evaluate inherited env).result = .ok false →
          evaluate (conjoin (some inherited) expression) env =
            ⟨.ok false, (evaluate inherited env).consultations⟩) ∧
        ((evaluate inherited env).result = .ok true →
          evaluate (conjoin (some inherited) expression) env =
            ⟨(evaluate expression env).result,
              (evaluate inherited env).consultations ++ (evaluate expression env).consultations⟩) := by
  refine ⟨Expr.parse?_conjoin first second, fun env => ?_⟩
  refine ⟨evaluate_conjoin_eq_true_iff first second env, ?_⟩
  rw [evaluate_conjoin first second]
  refine ⟨?_, ?_, ?_⟩
  · intro error failed
    exact Inquiry.bind_of_error failed _
  · intro refused
    rw [Inquiry.bind_of_ok refused]
    simp [Pure.pure, Inquiry.pure]
  · intro held
    rw [Inquiry.bind_of_ok held]
    rfl

def administrator : Environment where
  object := none
  caller := RoleHolder.toCaller { roles := ["ADMIN"] }

theorem conjoin_conjunction_roles :
    Expr.parse? "has_role('ADMIN')" = some (.call "has_role" [.literal (.string "ADMIN")]) ∧
      Expr.parse? "not user" = some (.unary .not (.var "user")) ∧
      (evaluate "has_role('ADMIN')" administrator).result = .ok true ∧
      evaluate (conjoin (some "has_role('ADMIN')") "not user") administrator =
        ⟨.ok true, [.roles, .user]⟩ := by
  have scanned : Token.scan "has_role('ADMIN')".toList =
      some [.name "has_role", .openParen, .string "ADMIN", .closeParen] := by
    decide +kernel
  have scannedRight : Token.scan "not user".toList = some [.not, .name "user"] := by
    decide +kernel
  have first := Expr.parse?_of_scan scanned rfl
  have second := Expr.parse?_of_scan scannedRight rfl
  have role : evaluate "has_role('ADMIN')" administrator = ⟨.ok true, [.roles]⟩ := by
    rw [evaluate_of_parse? first]
    rfl
  have nobody : evaluate "not user" administrator = ⟨.ok true, [.user]⟩ := by
    rw [evaluate_of_parse? second]
    rfl
  have held : (evaluate "has_role('ADMIN')" administrator).result = .ok true := by rw [role]
  obtain ⟨-, -, -, onward⟩ := (conjoin_conjunction first second).2 administrator
  refine ⟨first, second, held, ?_⟩
  rw [onward held, role, nobody]
  rfl

end Visibility
