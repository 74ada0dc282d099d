import Visibility.Decoding

set_option autoImplicit false
set_option relaxedAutoImplicit false

/-!
JSON values as a source of typed values.  Fields may also be given as a list, in the order of their
names.
-/

namespace Visibility.Json

private def positional? : List String → List Json → Option (List (String × Json))
  | _, [] => some []
  | [], _ :: _ => none
  | name :: names, item :: items => ((name, item) :: ·) <$> positional? names items

private def lift {α : Type} (result : Option α) : Decoding α :=
  StateT.lift result

private def known (names : List String) (fields : Fields) : Fields :=
  fields.filter fun field => names.contains field.1

instance : Source Json where
  text value := lift value.string?
  optional read value := if value.isNull then pure none else some <$> read value
  list read value := do (← lift value.array?).mapM read
  entries read value := do
    (← lift value.object?).mapM fun (name, item) => do return (name, ← read item)
  fields names
    | object fields => pure (known names fields)
    | array items => lift (positional? names items)
    | _ => failure
  openFields names value := do
    let fields ← lift value.object?
    return (known names fields, fields.filter fun field => !names.contains field.1)
  choice ofName?
    | string name => lift (ofName? name)
    | object [(name, null)] => lift (ofName? name)
    | _ => failure
  json := pure

end Visibility.Json
