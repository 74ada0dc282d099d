import Visibility.Expression.Comparing
import Visibility.Expression.Inquiry
import Visibility.Text.CaseMap

set_option autoImplicit false
set_option relaxedAutoImplicit false

/-!
The value of an expression over the instance, the caller and further named values.
-/

namespace Visibility

structure Environment where
  /-- The instance, bound to `object`. -/
  object : Option Json
  /-- The caller, bound to `user`, `roles` and `auth_checker`. -/
  caller : Caller
  extra : Json.Fields := []

namespace Environment

/-- What a name stands for.  The user and the roles are asked of the caller each time. -/
def lookup (env : Environment) (name : String) : Inquiry Json :=
  match name with
  | "object" => pure (env.object.getD .null)
  | "user" => return (← Inquiry.askUser env.caller).getD .null
  | "roles" => return Json.strings (← Inquiry.askRoles env.caller)
  | _ =>
    match env.extra.lookup name with
    | some value => pure value
    | none => Inquiry.fail (.unknownVariable name)

end Environment

/-- The property that an accessor method reads: `getOwner` reads `owner`, `isPublic` reads `public`
and `hasItems` reads `items`. -/
def accessorProperty (method : String) : String :=
  let rest? : Option (List Char) := ["get", "is", "has"].findSome? fun start =>
    if start.toList.isPrefixOf method.toList then
      let rest := method.toList.drop start.length
      match rest with
      | first :: _ => if Text.isUpper first then some rest else none
      | [] => none
    else none
  match rest? with
  | some (first :: rest) => String.ofList (Text.lower first ++ rest)
  | _ => method

/-- A property of an object.  A missing property is `null`, and so is every property of `null`. -/
def memberOf (target : Json) (name : String) : Except ExpressionError Json :=
  match target with
  | .object fields => .ok ((fields.lookup name).getD .null)
  | .null => .ok .null
  | other => .error (.noMembers name other.kind)

def UnaryOp.apply (op : UnaryOp) (operand : Json) : Except ExpressionError Json :=
  match op with
  | .not => .ok (.bool !operand.truthy)
  | .neg =>
    match operand with
    | .number value => .ok (.number value.negate)
    | other => .error (.notNegatable other.kind)

inductive Function where
  | isGranted
  | isAuthenticated
  | hasRole
deriving DecidableEq, Repr

namespace Function

def ofName? : String → Option Function
  | "is_granted" => some isGranted
  | "is_authenticated" => some isAuthenticated
  | "has_role" => some hasRole
  | _ => none

def name : Function → String
  | isGranted => "is_granted"
  | isAuthenticated => "is_authenticated"
  | hasRole => "has_role"

/-- The numbers of arguments that a function takes, and how a message calls them. -/
def arity : Function → (Nat × Nat) × String
  | isGranted => ((1, 2), "one or two arguments")
  | isAuthenticated => ((0, 0), "no arguments")
  | hasRole => ((1, 1), "one argument")

/-- Asks for the permissions in order until one is granted; what is no text is never granted. -/
def anyGranted (caller : Caller) (subject : Option Json) : List Json → Inquiry Bool
  | [] => pure false
  | .string permission :: rest => do
    let granted ← Inquiry.ask caller permission subject
    if granted then pure true else anyGranted caller subject rest
  | _ :: rest => anyGranted caller subject rest

def apply (caller : Caller) (function : Function) (args : List Json) : Inquiry Json :=
  match function, args with
  | isGranted, first :: rest =>
    match first with
    | .string permission => return .bool (← Inquiry.ask caller permission rest.head?)
    | .array permissions => return .bool (← anyGranted caller rest.head? permissions)
    | _ => Inquiry.fail .permissionNotText
  | isAuthenticated, _ => return .bool (← Inquiry.askAuthenticated caller)
  | hasRole, .string role :: _ => return .bool ((← Inquiry.askRoles caller).contains role)
  | hasRole, _ => Inquiry.fail .roleNotText
  | isGranted, [] => Inquiry.fail .permissionNotText

def resolve (name : String) (count : Nat) : Except ExpressionError Function :=
  match ofName? name with
  | none => .error (.unknownFunction name)
  | some function =>
    let ((least, most), expected) := function.arity
    if least ≤ count ∧ count ≤ most then .ok function
    else .error (.wrongArguments name expected)

end Function

def Expr.isCaller : Expr → Bool
  | .var name => name = "auth_checker"
  | _ => false

def callerMethod (method : String) (count : Nat) : Except ExpressionError Function :=
  if method = "isGranted" then Function.resolve "is_granted" count
  else .error (.unknownFunction ("auth_checker." ++ method))

namespace Expr

mutual

/-- The value of an expression.  Operands are evaluated from left to right, the right side of `and`
and `or` only where the left side does not decide. -/
def eval (env : Environment) : Expr → Inquiry Json
  | literal value => pure value.toJson
  | list items => return .array (← evalAll env items)
  | var name => env.lookup name
  | member target name => do
    let target ← eval env target
    Inquiry.ofExcept (memberOf target name)
  | methodCall target method args =>
    if target.isCaller then do
      let function ← Inquiry.ofExcept (callerMethod method args.length)
      let values ← evalAll env args
      function.apply env.caller values
    else if args.isEmpty then do
      let target ← eval env target
      Inquiry.ofExcept (memberOf target (accessorProperty method))
    else Inquiry.fail (.notAnAccessor method)
  | call name args => do
    let function ← Inquiry.ofExcept (Function.resolve name args.length)
    let values ← evalAll env args
    function.apply env.caller values
  | unary op operand => do
    let operand ← eval env operand
    Inquiry.ofExcept (op.apply operand)
  | binary .and left right => do
    let left ← eval env left
    if left.truthy then return .bool (← eval env right).truthy else return .bool false
  | binary .or left right => do
    let left ← eval env left
    if left.truthy then return .bool true else return .bool (← eval env right).truthy
  | binary (.compare op) left right => do
    let left ← eval env left
    let right ← eval env right
    return .bool (← Inquiry.ofExcept (op.test left right))

def evalAll (env : Environment) : List Expr → Inquiry (List Json)
  | [] => pure []
  | first :: rest => do
    let first ← eval env first
    let rest ← evalAll env rest
    return first :: rest

end

end Expr

end Visibility
