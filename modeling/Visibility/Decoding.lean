import Visibility.Json.Basic

set_option autoImplicit false
set_option relaxedAutoImplicit false

/-!
Reading typed values out of documents, whatever format a document has.

A document may refer to parts of itself; how often a reader may follow such a reference is counted
down while it reads.
-/

namespace Visibility

/-- Readers that may follow a number of references and may fail. -/
abbrev Decoding := StateT Nat Option

/-- What a place in a document of some format offers to readers. -/
class Source (σ : Type) where
  text : σ → Decoding String
  /-- Nothing where a null stands. -/
  optional {α : Type} : (σ → Decoding α) → σ → Decoding (Option α)
  list {α : Type} : (σ → Decoding α) → σ → Decoding (List α)
  /-- The entries of a map with text keys. -/
  entries {α : Type} : (σ → Decoding α) → σ → Decoding (List (String × α))
  /-- The fields with known names; a repeated one is refused, and others are passed over. -/
  fields : List String → σ → Decoding (List (String × σ))
  /-- The fields with known names, and the values of all others. -/
  openFields : List String → σ → Decoding (List (String × σ) × Json.Fields)
  /-- A value of a closed set, by its name. -/
  choice {α : Type} : (String → Option α) → σ → Decoding α
  json : σ → Decoding Json

namespace Decoding

variable {σ α : Type}

def fieldD (fields : List (String × σ)) (name : String) (default : α) (read : σ → Decoding α) :
    Decoding α :=
  match fields.lookup name with
  | some place => read place
  | none => pure default

def field (fields : List (String × σ)) (name : String) (read : σ → Decoding α) : Decoding α :=
  match fields.lookup name with
  | some place => read place
  | none => failure

/-- A dictionary; a repeated key takes its last value. -/
def dict [Source σ] (read : σ → Decoding α) (place : σ) : Decoding (Dict α) := do
  return Dict.ofList (← Source.entries read place)

def run? (reading : Decoding α) (budget : Nat := 0) : Option α :=
  (reading.run budget).map Prod.fst

end Decoding

end Visibility
