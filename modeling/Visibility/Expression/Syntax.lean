import Visibility.Json.Basic

set_option autoImplicit false
set_option relaxedAutoImplicit false

/-!
Syntax trees of security expressions.
-/

namespace Visibility

/-- Values written in an expression.  A written integer has no sign and fits into 64 signed bits. -/
inductive Literal where
  | null
  | bool (value : Bool)
  | int (value : Nat)
  | float (value : Float)
  | string (value : String)
deriving DecidableEq

def Literal.toJson : Literal → Json
  | null => .null
  | bool value => .bool value
  | int value => .int value
  | float value => .number (.float value)
  | string value => .string value

inductive UnaryOp where
  | not
  | neg
deriving DecidableEq, Repr

inductive Comparison where
  | eq
  | notEq
  | identical
  | notIdentical
  | lt
  | le
  | gt
  | ge
  | isIn
  | notIn
  | isMatch
deriving DecidableEq, Repr

inductive BinaryOp where
  | or
  | and
  | compare (comparison : Comparison)
deriving DecidableEq, Repr

inductive Expr where
  | literal (value : Literal)
  | list (items : List Expr)
  | var (name : String)
  | member (target : Expr) (name : String)
  | methodCall (target : Expr) (method : String) (args : List Expr)
  | call (function : String) (args : List Expr)
  | unary (op : UnaryOp) (operand : Expr)
  | binary (op : BinaryOp) (left right : Expr)

instance : Inhabited Expr := ⟨.literal .null⟩

/-- What holds of an expression when it holds of its parts holds of every expression. -/
@[elab_as_elim]
theorem Expr.induction {motive : Expr → Prop} (literal : ∀ value, motive (.literal value))
    (list : ∀ items, (∀ item ∈ items, motive item) → motive (.list items))
    (var : ∀ name, motive (.var name))
    (member : ∀ target name, motive target → motive (.member target name))
    (methodCall : ∀ target method args, motive target → (∀ arg ∈ args, motive arg) →
      motive (.methodCall target method args))
    (call : ∀ function args, (∀ arg ∈ args, motive arg) → motive (.call function args))
    (unary : ∀ op operand, motive operand → motive (.unary op operand))
    (binary : ∀ op left right, motive left → motive right → motive (.binary op left right))
    (expr : Expr) : motive expr :=
  @Expr.rec motive (fun exprs => ∀ expr ∈ exprs, motive expr)
    literal list var member methodCall call unary binary (List.forall_mem_nil _)
    (fun _ _ first rest => List.forall_mem_cons.mpr ⟨first, rest⟩) expr

def Comparison.text : Comparison → String
  | eq => "=="
  | notEq => "!="
  | identical => "==="
  | notIdentical => "!=="
  | lt => "<"
  | le => "<="
  | gt => ">"
  | ge => ">="
  | isIn => "in"
  | notIn => "not in"
  | isMatch => "matches"

def BinaryOp.text : BinaryOp → String
  | or => "or"
  | and => "and"
  | compare comparison => comparison.text

def reservedWords : List String :=
  ["and", "or", "not", "in", "matches", "true", "false", "null"]

end Visibility
