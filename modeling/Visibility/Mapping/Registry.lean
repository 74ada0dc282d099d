import Visibility.Mapping.Walk

set_option autoImplicit false
set_option relaxedAutoImplicit false

/-!
Registries: the attribute tables of a definition, and a slot that holds one registry for a whole
program.
-/

namespace Visibility

structure Registry where
  tables : Tables := .empty
  /-- Types with a mapping of their own, as opposed to types reached only through fields. -/
  mappedTypes : List String := []
  /-- Files the registry was built from, in order of processing. -/
  files : List String := []

namespace Registry

def ofDefinition (definition : Definition) (resolver : Resolver) :
    Except MappingError Registry := do
  let tables ← definition.tables resolver
  return { tables := tables, mappedTypes := definition.typeNames }

def table? (registry : Registry) (type : String) : Option Table :=
  registry.tables.get? type

def isMapped (registry : Registry) (type : String) : Bool :=
  registry.mappedTypes.contains type

def size (registry : Registry) : Nat :=
  registry.tables.size

def isEmpty (registry : Registry) : Bool :=
  registry.tables.isEmpty

end Registry

/-- A slot that is filled once. -/
structure Slot where
  registry : Option Registry := none

namespace Slot

/-- The registry in the slot, built on first use; after a failure the slot stays empty. -/
def getOrBuild (slot : Slot) (build : Except MappingError Registry) :
    Except MappingError Registry × Slot :=
  match slot.registry with
  | some registry => (.ok registry, slot)
  | none =>
    match build with
    | .ok registry => (.ok registry, ⟨some registry⟩)
    | .error error => (.error error, slot)

/-- Fills an empty slot; a registry that finds no room comes back. -/
def install (slot : Slot) (registry : Registry) : Option Registry × Slot :=
  match slot.registry with
  | some _ => (some registry, slot)
  | none => (none, ⟨some registry⟩)

end Slot

end Visibility
