set_option autoImplicit false
set_option relaxedAutoImplicit false

/-!
Why a mapping cannot be located, read or resolved.
-/

namespace Visibility

/-- What is wrong with the shape of a mapping; `found` is what stands there instead. -/
inductive Malformation where
  | documentNotMap (found : String)
  | keyNotText (found : String)
  | typeNotMap (type found : String)
  | colonInGroup (group type : String)
  | groupNotMap (group type found : String)
  | attributeKeyNotText (found : String)
  | emptyExpression (directive found : String)
  | depthNotNatural (directive found : String)
  | nameNotText (directive found : String)
  | ignoreNotBool (directive found : String)
  | attributeNotMap (attribute_ found : String)
deriving DecidableEq, Repr

private def inMarks (text : String) : String :=
  "\"" ++ text ++ "\""

def Malformation.message : Malformation → String
  | documentNotMap found => "expected a map of types, found " ++ found
  | keyNotText found => "keys must be strings, found " ++ found
  | typeNotMap type found =>
    "type " ++ inMarks type ++ " must map operation groups to attributes, found " ++ found
  | colonInGroup group type =>
    "group name " ++ inMarks group ++ " of type " ++ inMarks type ++ " must not contain ':'"
  | groupNotMap group type found =>
    "group " ++ inMarks group ++ " of type " ++ inMarks type ++
      " must be a map of attributes, found " ++ found
  | attributeKeyNotText found => "attribute keys must be strings, found " ++ found
  | emptyExpression directive found =>
    directive ++ " expects a non-empty expression, found " ++ found
  | depthNotNatural directive found =>
    directive ++ " expects a non-negative integer, found " ++ found
  | nameNotText directive found => directive ++ " expects a string, found " ++ found
  | ignoreNotBool directive found => directive ++ " expects a boolean, found " ++ found
  | attributeNotMap key found =>
    "attribute " ++ inMarks key ++
      " must map to nothing or to nested attributes, found " ++ found

inductive MappingError where
  | notLocalFile (location : String)
  | malformed (origin : String) (what : Malformation)
  | emptyGroup (type group origin : String)
  | missingParent (directive type group : String)
  | unknownSecurityPrefix (marker type group : String)
  | unreadable (path : String)
  | notYaml (path : String)
deriving DecidableEq, Repr

def MappingError.message : MappingError → String
  | notLocalFile location => "mapping source " ++ inMarks location ++ " is not a local file"
  | malformed origin what => "malformed mapping in " ++ origin ++ ": " ++ what.message
  | emptyGroup type group origin =>
    "the mapping described for group " ++ inMarks group ++ " of type " ++ inMarks type ++
      " in " ++ origin ++ " should not be empty"
  | missingParent directive type group =>
    "directive " ++ inMarks directive ++ " in group " ++ inMarks group ++ " of type " ++
      inMarks type ++ " has no enclosing attribute"
  | unknownSecurityPrefix marker type group =>
    "security prefix " ++ inMarks marker ++ " in group " ++ inMarks group ++ " of type " ++
      inMarks type ++ " has no matching _security" ++ marker ++ " definition"
  | unreadable path => "failed to read " ++ path
  | notYaml path => "failed to parse " ++ path

end Visibility
