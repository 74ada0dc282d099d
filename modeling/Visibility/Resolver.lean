import Visibility.Schema
import Visibility.Text.Blank
import Visibility.Text.CaseMap
import Visibility.Text.Split

set_option autoImplicit false
set_option relaxedAutoImplicit false

/-!
The type that a field leads to.

The sources are, first match wins: the declared return type of the accessor `get<Field>` unless it
is a collection, `@return` in its comment, relations of the property, and its declared type or
`@var` in its comment.  A candidate counts only if it names a known type, as it stands or in the
namespace of the owner.
-/

namespace Visibility

/-- Turns `first_name`, `first.name` and `first\name` into `FirstName`: the words between separators
are joined, each with its first letter in upper case. -/
def camelCase (separator field : String) : String :=
  let spaced :=
    if separator.isEmpty then field.toList else Text.replace separator.toList [' '] field.toList
  let words := Text.splitAt (fun c => c = '_' || c = '.' || c = ' ') spaced
  String.ofList (words.flatMap fun
    | [] => []
    | first :: rest => Text.upper first ++ rest)

structure Resolver where
  introspector : Introspector
  /-- What stands between the parts of a type's name. -/
  separator : String
  /-- Declared types that never name the type of an element. -/
  collections : List String

namespace Resolver

/-- The name of a type after an annotation in a comment. -/
def annotated? (mark : String) (doc : String) : Option String :=
  let isStart (c : Char) : Bool := c.isAlpha || c = '_' || c = '\\' || c = ':'
  let inName (c : Char) : Bool := c.isAlphanum || c = '_' || c = '\\' || c = ':'
  let rec search : List Char → Option String
    | [] => none
    | c :: rest =>
      match Text.afterLead? mark.toList (c :: rest) with
      | some after =>
        match after.dropWhile Text.isBlank with
        | first :: more =>
          if isStart first then some (String.ofList (first :: more.takeWhile inName))
          else search rest
        | [] => search rest
      | none => search rest
  search doc.toList

def trimLeads (resolver : Resolver) (name : String) : String :=
  String.ofList (Text.dropLeads resolver.separator.toList name.toList)

def isCollection (resolver : Resolver) (type : String) : Bool :=
  resolver.collections.contains (resolver.trimLeads type)

/-- The known type that a candidate names, as it stands or in the namespace of the owner. -/
def known? (resolver : Resolver) (owner candidate : String) : Option String :=
  let candidate := resolver.trimLeads (Text.trim candidate)
  if candidate.isEmpty || resolver.isCollection candidate then none
  else if resolver.introspector.typeExists candidate then some candidate
  else
    match Text.cutLast? resolver.separator owner with
    | none => none
    | some (namespace_, _) =>
      let qualified := namespace_ ++ resolver.separator ++ candidate
      if resolver.introspector.typeExists qualified then some qualified else none

def ofAccessor? (resolver : Resolver) (owner : String) (accessor : Accessor) : Option String := do
  let declared := accessor.returns.filter fun type => !resolver.isCollection type
  let candidate ← declared.or (accessor.doc.bind (annotated? "@return"))
  resolver.known? owner candidate

def ofProperty? (resolver : Resolver) (owner : String) (property : Property) : Option String :=
  match property.relations.findSome? fun relation => resolver.known? owner relation.target with
  | some type => some type
  | none => do
    let candidate ← property.type.or (property.doc.bind (annotated? "@var"))
    resolver.known? owner candidate

/-- The type that a field of an owner leads to, if it leads to one. -/
def fieldType? (resolver : Resolver) (owner field : String) : Option String :=
  let method := "get" ++ camelCase resolver.separator field
  match (resolver.introspector.accessor owner method).bind (resolver.ofAccessor? owner) with
  | some type => some type
  | none => (resolver.introspector.property owner field).bind (resolver.ofProperty? owner)

end Resolver

end Visibility
