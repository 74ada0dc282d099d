import Visibility.Ordered.Dict
import Visibility.Ordered.OrderedSet

set_option autoImplicit false
set_option relaxedAutoImplicit false

/-!
Attribute tables: per field of a type, the tags and limits under which it is visible, and per type
all tags that were given while its groups were walked.
-/

namespace Visibility

/-- What is known of one field of one type. -/
structure Entry where
  name : String
  groups : OrderedSet String := .empty
  maxDepth : Option Nat := none
  serializedName : Option String := none
  ignored : Bool := false

namespace Entry

def isTaggedWithAny (entry : Entry) (active : List String) : Bool :=
  active.any fun group => group ∈ entry.groups

def isVisible (entry : Entry) (active : List String) : Bool :=
  !entry.ignored && entry.isTaggedWithAny active

end Entry

inductive EntryChange where
  | touch
  | tag (group : String)
  | maxDepth (depth : Nat)
  | serializedName (name : String)
  | ignore (flag : Bool)
deriving DecidableEq, Repr

def Entry.apply (entry : Entry) : EntryChange → Entry
  | .touch => entry
  | .tag group => { entry with groups := entry.groups.insert group }
  | .maxDepth depth => { entry with maxDepth := some depth }
  | .serializedName name => { entry with serializedName := some name }
  | .ignore flag => { entry with ignored := flag }

structure Table where
  type : String
  attributes : Dict Entry := .empty
  allGroups : OrderedSet String := .empty

namespace Table

def empty (type : String) : Table := { type := type }

/-- Changes the entry of a field; a field without one gets an empty entry first. -/
def change (table : Table) (field : String) (change : EntryChange) : Table :=
  { table with
    attributes := table.attributes.alter field fun previous? =>
      (previous?.getD { name := field }).apply change }

def addCatchAll (table : Table) (group : String) : Table :=
  { table with allGroups := table.allGroups.insert group }

def get? (table : Table) (field : String) : Option Entry :=
  table.attributes.get? field

def entries (table : Table) : List Entry :=
  table.attributes.values

def size (table : Table) : Nat :=
  table.attributes.size

def isEmpty (table : Table) : Bool :=
  table.attributes.isEmpty

/-- Whether a field is seen under some active tags; a field without an entry never is. -/
def isVisible (table : Table) (field : String) (active : List String) : Bool :=
  match table.get? field with
  | some entry => entry.isVisible active
  | none => false

def visible (table : Table) (active : List String) : List Entry :=
  table.entries.filter (·.isVisible active)

end Table

end Visibility
