import Visibility.Decoding
import Visibility.Schema

set_option autoImplicit false
set_option relaxedAutoImplicit false

/-!
Reading schemas.  All parts of a schema may be missing, except for the kind and the target of a
relation.
-/

namespace Visibility

variable {σ : Type} [Source σ]

private def optionalText (fields : List (String × σ)) (name : String) :
    Decoding (Option String) :=
  Decoding.fieldD fields name none (Source.optional Source.text)

def Relation.decode (place : σ) : Decoding Relation := do
  let fields ← Source.fields ["kind", "target"] place
  return {
    kind := ← Decoding.field fields "kind" (Source.choice RelationKind.ofName?)
    target := ← Decoding.field fields "target" Source.text }

def Accessor.decode (place : σ) : Decoding Accessor := do
  let fields ← Source.fields ["returns", "doc"] place
  return { returns := ← optionalText fields "returns", doc := ← optionalText fields "doc" }

def Property.decode (place : σ) : Decoding Property := do
  let fields ← Source.fields ["type", "doc", "relations"] place
  return {
    type := ← optionalText fields "type"
    doc := ← optionalText fields "doc"
    relations := ← Decoding.fieldD fields "relations" [] (Source.list Relation.decode) }

def TypeSchema.decode (place : σ) : Decoding TypeSchema := do
  let fields ← Source.fields ["accessors", "properties"] place
  return {
    accessors := ← Decoding.fieldD fields "accessors" .empty (Decoding.dict Accessor.decode)
    properties := ← Decoding.fieldD fields "properties" .empty (Decoding.dict Property.decode) }

def Schema.decode (place : σ) : Decoding Schema := do
  let fields ← Source.fields ["types"] place
  return ⟨← Decoding.fieldD fields "types" .empty (Decoding.dict TypeSchema.decode)⟩

end Visibility
