set_option autoImplicit false
set_option relaxedAutoImplicit false

/-!
Dictionaries with text keys that keep the order in which keys first appeared.

A dictionary is a list of pairs without repeated keys.  `alter` changes the value at a key in its
place, or appends the key; the main statements say what `alter` does to the keys and to a look-up.
-/

namespace Visibility

namespace Assoc

variable {κ α : Type} [DecidableEq κ]

/-- Changes the value at `key` where it stands, or appends the key with the value of `f none`. -/
def alter (key : κ) (f : Option α → α) : List (κ × α) → List (κ × α)
  | [] => [(key, f none)]
  | (k, v) :: rest => if k = key then (k, f (some v)) :: rest else (k, v) :: alter key f rest

def put (key : κ) (value : α) : List (κ × α) → List (κ × α) :=
  alter key fun _ => value

/-- Reads pairs in order; a repeated key keeps its first place and takes its last value. -/
def ofList (pairs : List (κ × α)) : List (κ × α) :=
  pairs.foldl (fun entries pair => put pair.1 pair.2 entries) []

theorem keys_alter (key : κ) (f : Option α → α) (entries : List (κ × α)) :
    (alter key f entries).map Prod.fst =
      if key ∈ entries.map Prod.fst then entries.map Prod.fst
      else entries.map Prod.fst ++ [key] := by
  induction entries with
  | nil => simp [alter]
  | cons pair rest ih =>
    obtain ⟨k, v⟩ := pair
    by_cases same : k = key
    · simp [alter, same]
    · have differ : key ≠ k := fun h => same h.symm
      simp only [alter, same, if_false, List.map_cons, ih, List.mem_cons, differ, false_or]
      split <;> simp

theorem lookup_alter (key other : κ) (f : Option α → α) (entries : List (κ × α)) :
    (alter key f entries).lookup other =
      if other = key then some (f (entries.lookup key)) else entries.lookup other := by
  induction entries with
  | nil =>
    by_cases same : other = key
    · simp [alter, same]
    · have : (other == key) = false := by simpa using same
      simp [alter, List.lookup_cons, same, this]
  | cons pair rest ih =>
    obtain ⟨k, v⟩ := pair
    by_cases found : k = key
    · subst found
      by_cases same : other = k
      · simp [alter, same]
      · have : (other == k) = false := by simpa using same
        simp [alter, List.lookup_cons, same, this]
    · have differ : (key == k) = false := by simpa using fun h => found h.symm
      by_cases here : other = k
      · subst here
        simp [alter, found]
      · have : (other == k) = false := by simpa using here
        simp [alter, found, List.lookup_cons, this, differ, ih]

theorem nodup_keys_alter (key : κ) (f : Option α → α) (entries : List (κ × α))
    (nodup : (entries.map Prod.fst).Nodup) : ((alter key f entries).map Prod.fst).Nodup := by
  rw [keys_alter]
  split
  · exact nodup
  · next absent =>
    rw [List.nodup_append]
    refine ⟨nodup, by simp, ?_⟩
    intro a ha b hb
    rw [List.mem_singleton] at hb
    subst hb
    exact fun h => absent (h ▸ ha)

theorem lookup_eq_some_iff_mem {entries : List (κ × α)} (nodup : (entries.map Prod.fst).Nodup)
    {key : κ} {value : α} : entries.lookup key = some value ↔ (key, value) ∈ entries := by
  induction entries with
  | nil => simp
  | cons pair rest ih =>
    obtain ⟨k, v⟩ := pair
    rw [List.map_cons, List.nodup_cons] at nodup
    by_cases here : key = k
    · subst here
      have later : (key, value) ∉ rest := fun present =>
        nodup.1 (List.mem_map.mpr ⟨_, present, rfl⟩)
      simp [later, eq_comm]
    · have differ : (key == k) = false := by simpa using here
      simp [List.lookup_cons, differ, ih nodup.2, here]

end Assoc

/-- Pairs of a text key and a value in the order in which the keys first appeared. -/
structure Dict (α : Type) where
  entries : List (String × α)
  nodup : (entries.map Prod.fst).Nodup

namespace Dict

variable {α β : Type}

def empty : Dict α := ⟨[], by simp⟩

instance : Inhabited (Dict α) := ⟨empty⟩

instance : EmptyCollection (Dict α) := ⟨empty⟩

def get? (dict : Dict α) (key : String) : Option α :=
  dict.entries.lookup key

def contains (dict : Dict α) (key : String) : Bool :=
  (dict.get? key).isSome

def alter (dict : Dict α) (key : String) (f : Option α → α) : Dict α :=
  ⟨Assoc.alter key f dict.entries, Assoc.nodup_keys_alter key f dict.entries dict.nodup⟩

def insert (dict : Dict α) (key : String) (value : α) : Dict α :=
  dict.alter key fun _ => value

def ofList (pairs : List (String × α)) : Dict α :=
  pairs.foldl (fun dict pair => dict.insert pair.1 pair.2) empty

def keys (dict : Dict α) : List String :=
  dict.entries.map Prod.fst

def values (dict : Dict α) : List α :=
  dict.entries.map Prod.snd

def size (dict : Dict α) : Nat :=
  dict.entries.length

def isEmpty (dict : Dict α) : Bool :=
  dict.entries.isEmpty

@[ext] theorem ext {first second : Dict α} (same : first.entries = second.entries) :
    first = second := by
  cases first
  cases second
  cases same
  rfl

@[simp] theorem get?_empty (key : String) : (empty : Dict α).get? key = none := rfl

@[simp] theorem keys_empty : (empty : Dict α).keys = [] := rfl

theorem nodup_keys (dict : Dict α) : dict.keys.Nodup := dict.nodup

theorem get?_alter (dict : Dict α) (key other : String) (f : Option α → α) :
    (dict.alter key f).get? other =
      if other = key then some (f (dict.get? key)) else dict.get? other :=
  Assoc.lookup_alter key other f dict.entries

theorem keys_alter (dict : Dict α) (key : String) (f : Option α → α) :
    (dict.alter key f).keys = if key ∈ dict.keys then dict.keys else dict.keys ++ [key] :=
  Assoc.keys_alter key f dict.entries

theorem get?_insert (dict : Dict α) (key other : String) (value : α) :
    (dict.insert key value).get? other = if other = key then some value else dict.get? other :=
  get?_alter dict key other fun _ => value

theorem mem_entries_iff (dict : Dict α) {key : String} {value : α} :
    (key, value) ∈ dict.entries ↔ dict.get? key = some value :=
  (Assoc.lookup_eq_some_iff_mem dict.nodup).symm

end Dict

end Visibility
