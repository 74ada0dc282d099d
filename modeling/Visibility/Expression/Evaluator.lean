import Visibility.Expression.Evaluation
import Visibility.Expression.Parser

set_option autoImplicit false
set_option relaxedAutoImplicit false

/-!
Evaluation of expression texts, with a cache of the trees of texts seen before.
-/

namespace Visibility

def Expr.parse (text : String) : Except ExpressionError Expr :=
  match Expr.parse? text with
  | some expr => .ok expr
  | none => .error (.notParsed text)

def evaluateValue (text : String) (env : Environment) : Inquiry Json := do
  let expr ← Inquiry.ofExcept (Expr.parse text)
  expr.eval env

def evaluate (text : String) (env : Environment) : Inquiry Bool := do
  let value ← evaluateValue text env
  return value.truthy

/-- Trees by the text they were read from. -/
structure Evaluator where
  cache : Dict Expr := .empty

namespace Evaluator

/-- The tree of a text, from the cache where it is there; a new tree is kept. -/
def parsed (evaluator : Evaluator) (text : String) : Except ExpressionError Expr × Evaluator :=
  match evaluator.cache.get? text with
  | some expr => (.ok expr, evaluator)
  | none =>
    match Expr.parse text with
    | .ok expr => (.ok expr, { evaluator with cache := evaluator.cache.insert text expr })
    | .error error => (.error error, evaluator)

def evaluateValue (evaluator : Evaluator) (text : String) (env : Environment) :
    Inquiry Json × Evaluator :=
  let (expr, evaluator) := evaluator.parsed text
  (do
    let expr ← Inquiry.ofExcept expr
    expr.eval env, evaluator)

def evaluate (evaluator : Evaluator) (text : String) (env : Environment) :
    Inquiry Bool × Evaluator :=
  let (value, evaluator) := evaluator.evaluateValue text env
  (do
    let value ← value
    return value.truthy, evaluator)

end Evaluator

end Visibility
