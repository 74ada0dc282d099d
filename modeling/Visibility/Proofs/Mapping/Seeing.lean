import Visibility.Proofs.Groups.Access
import Visibility.Proofs.Ordered.Dict

set_option autoImplicit false
set_option relaxedAutoImplicit false

/-!
Which entries of a table are seen, by name and by going through the table.

A table is filled call by call.  The entry of a field is what the calls for the field have made of it, and
keeps the name that it is looked up by.  The main statement is that both ways see the same entries, each
once, and that they see no less under more groups.
-/

namespace Visibility

/-- A call for a table: for a tag of the type, or for a change of the entry of a field. -/
inductive TableCall where
  | catchAll (group : String)
  | entry (field : String) (change : EntryChange)
deriving DecidableEq, Repr

def EntryChange.ignores? : EntryChange → Option Bool
  | .ignore flag => some flag
  | .touch | .tag _ | .maxDepth _ | .serializedName _ => none

namespace TableCall

variable {field : String} {change : EntryChange} {calls : List TableCall}

def changeAt? (field : String) : TableCall → Option EntryChange
  | .catchAll _ => none
  | .entry other change => if other = field then some change else none

def changesAt (field : String) (calls : List TableCall) : List EntryChange :=
  calls.filterMap (changeAt? field)

/-- Whether a field is ignored after some calls: the last call that says so decides. -/
def leaveIgnored (field : String) (calls : List TableCall) : Bool :=
  ((changesAt field calls).filterMap EntryChange.ignores?).getLast?.getD false

theorem mem_changesAt_iff : change ∈ changesAt field calls ↔ .entry field change ∈ calls := by
  rw [changesAt, List.mem_filterMap]
  constructor
  · rintro ⟨call, present, made⟩
    cases call with
    | catchAll => contradiction
    | entry other own =>
      rw [changeAt?] at made
      split at made
      · next same =>
        cases made
        exact same ▸ present
      · contradiction
  · intro present
    exact ⟨_, present, if_pos rfl⟩

end TableCall

theorem Entry.ignored_of_changed {field : String} {changes : List EntryChange} {entry : Entry}
    (changed : Entry.changed field none changes = some entry) :
    entry.ignored = (changes.filterMap EntryChange.ignores?).getLast?.getD false := by
  cases changes with
  | nil => contradiction
  | cons change changes =>
    rw [Entry.changed_cons_eq_some] at changed
    cases changed
    have ignored_apply (entry : Entry) (change : EntryChange) :
        (entry.apply change).ignored = change.ignores?.getD entry.ignored := by
      cases change <;> rfl
    exact Entry.read_foldl_apply ignored_apply { name := field } (change :: changes)

namespace Table

open TableCall (changesAt leaveIgnored)

def call (table : Table) : TableCall → Table
  | .catchAll group => table.addCatchAll group
  | .entry field change => table.change field change

def ofCalls (type : String) (calls : List TableCall) : Table :=
  calls.foldl call (.empty type)

theorem get?_call (table : Table) (made : TableCall) (field : String) :
    (table.call made).get? field =
      Entry.changed field (table.get? field) (made.changeAt? field).toList := by
  cases made with
  | catchAll group => rfl
  | entry other change =>
    rw [call, get?_change, TableCall.changeAt?]
    by_cases same : other = field
    · rw [if_pos same.symm, if_pos same, same]
      rfl
    · rw [if_neg (Ne.symm same), if_neg same]
      rfl

theorem get?_foldl_call (table : Table) (calls : List TableCall) (field : String) :
    (calls.foldl call table).get? field =
      Entry.changed field (table.get? field) (changesAt field calls) := by
  induction calls generalizing table with
  | nil => rfl
  | cons made calls ih =>
    rw [List.foldl_cons, ih, get?_call]
    unfold changesAt
    cases given : made.changeAt? field with
    | none => rw [List.filterMap_cons_none given]; rfl
    | some change => rw [List.filterMap_cons_some given]; rfl

variable (type : String) (calls : List TableCall)

theorem get?_ofCalls (field : String) :
    (ofCalls type calls).get? field = Entry.changed field none (changesAt field calls) :=
  get?_foldl_call (.empty type) calls field

/-- A field is seen where some call has tagged it with an active group, and it is not left ignored. -/
theorem isVisible_ofCalls_iff (field : String) (active : List String) :
    (ofCalls type calls).isVisible field active = true ↔
      leaveIgnored field calls = false ∧ ∃ group ∈ active, .entry field (.tag group) ∈ calls := by
  rw [isVisible_iff, get?_ofCalls]
  constructor
  · rintro ⟨entry, changed, shown, group, on, tagged⟩
    have ignored := Entry.ignored_of_changed changed
    have given := (Entry.mem_groups_changed field group none _).mp ⟨entry, changed, tagged⟩
    have called : .tag group ∈ changesAt field calls := given.resolve_left (by simp)
    exact ⟨ignored.symm.trans shown, group, on, TableCall.mem_changesAt_iff.mp called⟩
  · rintro ⟨shown, group, on, called⟩
    obtain ⟨entry, changed, tagged⟩ := (Entry.mem_groups_changed field group none _).mpr
      (.inr (TableCall.mem_changesAt_iff.mpr called))
    exact ⟨entry, changed, (Entry.ignored_of_changed changed).trans shown, group, on, tagged⟩

def Named (table : Table) : Prop :=
  ∀ field entry, table.get? field = some entry → entry.name = field

theorem named_ofCalls : (ofCalls type calls).Named := by
  intro field entry found
  rw [get?_ofCalls] at found
  exact Entry.name_changed (by simp) found

/-- Going through a table sees the entries that are visible by their names, and no other name is
visible. -/
structure SeesAlike (table : Table) (active : List String) : Prop where
  entries : table.visible active =
    table.entries.filter fun entry => table.isVisible entry.name active
  names : (table.visible active).map Entry.name =
    table.attributes.keys.filter (table.isVisible · active)
  nodup : ((table.visible active).map Entry.name).Nodup
  absent : ∀ field, table.get? field = none → table.isVisible field active = false

namespace Named

variable {table : Table}

theorem get?_name (named : table.Named) {entry : Entry} (present : entry ∈ table.entries) :
    table.get? entry.name = some entry := by
  obtain ⟨⟨field, _⟩, inEntries, rfl⟩ := List.mem_map.mp present
  have found : table.get? field = some _ := table.attributes.mem_entries_iff.mp inEntries
  rw [named field _ found, found]

theorem map_name_entries (named : table.Named) :
    table.entries.map Entry.name = table.attributes.keys := by
  rw [Table.entries, Dict.values, List.map_map, Dict.keys]
  exact List.map_congr_left fun pair present =>
    named pair.1 pair.2 (table.attributes.mem_entries_iff.mp present)

theorem visible_eq_filter (named : table.Named) (active : List String) :
    table.visible active = table.entries.filter fun entry => table.isVisible entry.name active := by
  refine List.filter_congr fun entry present => ?_
  rw [Table.isVisible, named.get?_name present]

theorem seesAlike (named : table.Named) (active : List String) : table.SeesAlike active := by
  have names : (table.visible active).map Entry.name =
      table.attributes.keys.filter (table.isVisible · active) := by
    rw [named.visible_eq_filter, ← named.map_name_entries, List.filter_map]
    rfl
  refine ⟨named.visible_eq_filter active, names, ?_, fun field absent => ?_⟩
  · rw [names]
    exact table.attributes.nodup_keys.filter _
  · rw [Table.isVisible, absent]

end Named

/-- A table that is filled by any calls sees the same entries by name and in order.  Those are the ones
that the calls tag with an active group and do not leave ignored, so that more groups let more be seen. -/
theorem seesAlike_ofCalls (active : List String) :
    (ofCalls type calls).SeesAlike active ∧
      (∀ field, (ofCalls type calls).isVisible field active = true ↔
        leaveIgnored field calls = false ∧ ∃ group ∈ active, .entry field (.tag group) ∈ calls) ∧
      ∀ more, active ⊆ more → ∀ field, (ofCalls type calls).isVisible field active = true →
        (ofCalls type calls).isVisible field more = true := by
  have called := isVisible_ofCalls_iff type calls
  refine ⟨(named_ofCalls type calls).seesAlike active, fun field => called field active, ?_⟩
  intro more subset field visible
  obtain ⟨shown, group, on, tagged⟩ := (called field active).mp visible
  exact (called field more).mpr ⟨shown, group, subset on, tagged⟩

def personCalls : List TableCall :=
  [.catchAll "read", .entry "name" (.tag "read"), .catchAll "read:is_granted('ADMIN')",
    .entry "secret" (.tag "read:is_granted('ADMIN')"), .entry "internal" (.tag "read"),
    .entry "internal" (.ignore true), .entry "name" (.maxDepth 2)]

/-- The name stays visible when the groups that show the secret are active too. -/
theorem seesAlike_ofCalls_person :
    (ofCalls "Person" personCalls).SeesAlike ["read"] ∧
      ((ofCalls "Person" personCalls).visible ["read"]).map Entry.name = ["name"] ∧
      ["read"] ⊆ ["read:is_granted('ADMIN')", "read"] ∧
      (ofCalls "Person" personCalls).isVisible "name" ["read"] = true ∧
      (ofCalls "Person" personCalls).isVisible "name" ["read:is_granted('ADMIN')", "read"] = true := by
  obtain ⟨alike, _, grows⟩ := seesAlike_ofCalls "Person" personCalls ["read"]
  have subset : ["read"] ⊆ ["read:is_granted('ADMIN')", "read"] := by decide
  have shown : (ofCalls "Person" personCalls).isVisible "name" ["read"] = true := by decide
  exact ⟨alike, by decide, subset, shown, grows _ subset "name" shown⟩

end Table

end Visibility
