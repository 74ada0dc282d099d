set_option autoImplicit false
set_option relaxedAutoImplicit false

/-!
Why an expression has no value.
-/

namespace Visibility

inductive ExpressionError where
  /-- The text is no expression. -/
  | notParsed (expression : String)
  | unknownVariable (name : String)
  | unknownFunction (name : String)
  | wrongArguments (function expected : String)
  | notAnAccessor (method : String)
  | permissionNotText
  | roleNotText
  | malformedPattern
  /-- The two sides, as they are called in a message, have no order. -/
  | unordered (left right : String)
  | unorderedNaN
  | notAList (right : String)
  | notMatchable
  | notNegatable (operand : String)
  | noMembers (name target : String)
deriving DecidableEq, Repr

inductive ExpressionError.Kind where
  | parse
  | unknownVariable
  | unknownFunction
  | invalidArgument
  | typeMismatch
deriving DecidableEq, Repr

def ExpressionError.kind : ExpressionError → ExpressionError.Kind
  | notParsed _ => .parse
  | unknownVariable _ => .unknownVariable
  | unknownFunction _ => .unknownFunction
  | wrongArguments _ _ | notAnAccessor _ | permissionNotText | roleNotText | malformedPattern =>
    .invalidArgument
  | unordered _ _ | unorderedNaN | notAList _ | notMatchable | notNegatable _ | noMembers _ _ =>
    .typeMismatch

private def inQuotes (text : String) : String :=
  "\"" ++ text ++ "\""

def ExpressionError.message : ExpressionError → String
  | notParsed expression =>
    "cannot parse expression " ++ inQuotes expression ++ ": the text does not follow the grammar"
  | unknownVariable name => "variable " ++ inQuotes name ++ " is not defined"
  | unknownFunction name => "function " ++ inQuotes name ++ " is not defined"
  | wrongArguments function expected =>
    "invalid argument for " ++ function ++ ": expects " ++ expected
  | notAnAccessor method =>
    "invalid argument for " ++ method ++ ": only zero-argument accessors can be called"
  | permissionNotText =>
    "invalid argument for is_granted: attribute must be a string or a list of strings"
  | roleNotText => "invalid argument for has_role: role must be a string"
  | malformedPattern => "invalid argument for matches: the pattern is not well-formed"
  | unordered left right => "type mismatch: cannot order " ++ left ++ " and " ++ right
  | unorderedNaN => "type mismatch: cannot order NaN"
  | notAList right =>
    "type mismatch: right side of \"in\" must be a list, found " ++ right
  | notMatchable => "type mismatch: \"matches\" needs a string and a pattern"
  | notNegatable operand => "type mismatch: cannot negate " ++ operand
  | noMembers name target => "type mismatch: cannot read " ++ inQuotes name ++ " of " ++ target

end Visibility
