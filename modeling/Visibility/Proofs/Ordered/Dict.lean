import Mathlib.Data.List.Basic
import Mathlib.Data.List.Induction
import Visibility.Ordered.Dict

set_option autoImplicit false
set_option relaxedAutoImplicit false

/-!
Dictionaries changed value by value, and joined to one another.

The pairs of one dictionary are brought into another one in order: a value that is there is changed in
its place, and a new key comes after all others.  A dictionary is known by its keys in order and by the
value at each of them.
-/

namespace Visibility

namespace Assoc

variable {κ α β : Type} [DecidableEq κ]

theorem map_alter (key : κ) (change : α → β) {f : Option α → α} {g : Option β → β}
    (commutes : ∀ value?, change (f value?) = g (value?.map change)) (entries : List (κ × α)) :
    (alter key f entries).map (fun pair => (pair.1, change pair.2)) =
      alter key g (entries.map fun pair => (pair.1, change pair.2)) := by
  induction entries with
  | nil => exact congrArg (fun value => [(key, value)]) (commutes none)
  | cons pair rest ih =>
    obtain ⟨first, value⟩ := pair
    by_cases here : first = key
    · have changed : change (f (some value)) = g (some (change value)) := commutes (some value)
      simp only [alter, here, if_true, List.map_cons, changed]
    · simp only [alter, here, if_false, List.map_cons, ih]

theorem alter_append {key : κ} {before : List (κ × α)} (absent : key ∉ before.map Prod.fst)
    (f : Option α → α) (after : List (κ × α)) :
    alter key f (before ++ after) = before ++ alter key f after := by
  induction before with
  | nil => rfl
  | cons pair rest ih =>
    obtain ⟨differ, absentRest⟩ := not_or.mp (List.mem_cons.not.mp absent)
    rw [List.cons_append, alter, if_neg (Ne.symm differ), ih absentRest, List.cons_append]

theorem alter_of_not_mem {key : κ} {entries : List (κ × α)} (absent : key ∉ entries.map Prod.fst)
    (f : Option α → α) : alter key f entries = entries ++ [(key, f none)] := by
  have behind := alter_append absent f []
  rwa [List.append_nil] at behind

end Assoc

namespace Dict

variable {α β γ : Type}

def map (change : α → β) (dict : Dict α) : Dict β :=
  ⟨dict.entries.map fun pair => (pair.1, change pair.2), by
    rw [List.map_map]
    exact dict.nodup⟩

theorem map_alter (change : α → β) {f : Option α → α} {g : Option β → β}
    (commutes : ∀ value?, change (f value?) = g (value?.map change)) (dict : Dict α)
    (key : String) : (dict.alter key f).map change = (dict.map change).alter key g :=
  Dict.ext (Assoc.map_alter key change commutes dict.entries)

theorem keys_map (change : α → β) (dict : Dict α) : (dict.map change).keys = dict.keys := by
  rw [keys, map, List.map_map]
  rfl

theorem get?_map (change : α → β) (dict : Dict α) (key : String) :
    (dict.map change).get? key = (dict.get? key).map change := by
  have mapped (entries : List (String × α)) :
      (entries.map fun pair => (pair.1, change pair.2)).lookup key =
        (entries.lookup key).map change := by
    induction entries with
    | nil => rfl
    | cons pair rest ih =>
      rw [List.map_cons, List.lookup_cons, List.lookup_cons, ih]
      split <;> rfl
  exact mapped dict.entries

theorem get?_eq_none_iff (dict : Dict α) {key : String} : dict.get? key = none ↔ key ∉ dict.keys := by
  rw [get?, List.lookup_eq_none_iff, keys, List.mem_map]
  constructor
  · rintro absent ⟨pair, present, rfl⟩
    simpa using absent pair present
  · intro absent pair present
    simpa using fun same => absent ⟨pair, present, same.symm⟩

theorem flatMap_entries (dict : Dict α) (f : String → Option α → List γ) :
    (dict.entries.flatMap fun pair => f pair.1 (some pair.2)) =
      dict.keys.flatMap fun key => f key (dict.get? key) := by
  rw [keys, List.flatMap_map]
  refine List.flatMap_congr fun pair present => ?_
  have found : dict.get? pair.1 = some pair.2 := dict.mem_entries_iff.mp present
  rw [found]

theorem ext_get? {first second : Dict α} (keys : first.keys = second.keys)
    (values : ∀ key, first.get? key = second.get? key) : first = second := by
  have pairs (dict : Dict α) : dict.entries =
      dict.keys.flatMap fun key => ((dict.get? key).map (Prod.mk key)).toList := by
    have listed := dict.flatMap_entries fun key value? => (value?.map (Prod.mk key)).toList
    rw [← listed]
    simp
  refine Dict.ext ?_
  rw [pairs first, pairs second, keys]
  simp only [values]

section Fold

variable (f : Option α → β → α)

private theorem get?_foldl {entries : List (String × β)} (nodup : (entries.map Prod.fst).Nodup)
    (start : Dict α) (key : String) :
    (entries.foldl (fun dict pair => dict.alter pair.1 (f · pair.2)) start).get? key =
      match entries.lookup key with
      | some value => some (f (start.get? key) value)
      | none => start.get? key := by
  induction entries generalizing start with
  | nil => rfl
  | cons pair rest ih =>
    obtain ⟨first, value⟩ := pair
    rw [List.map_cons, List.nodup_cons] at nodup
    rw [List.foldl_cons, ih nodup.2, get?_alter]
    by_cases here : key = first
    · subst here
      have later : rest.lookup key = none := by
        rw [List.lookup_eq_none_iff]
        intro pair present
        simpa using fun same => nodup.1 (List.mem_map.mpr ⟨pair, present, same.symm⟩)
      simp [later]
    · have differ : (key == first) = false := by simpa using here
      simp [List.lookup_cons, differ, here]

private theorem keys_foldl {entries : List (String × β)} (nodup : (entries.map Prod.fst).Nodup)
    (start : Dict α) :
    (entries.foldl (fun dict pair => dict.alter pair.1 (f · pair.2)) start).keys =
      start.keys ++ (entries.map Prod.fst).filter (· ∉ start.keys) := by
  induction entries generalizing start with
  | nil => simp
  | cons pair rest ih =>
    obtain ⟨first, value⟩ := pair
    rw [List.map_cons, List.nodup_cons] at nodup
    rw [List.foldl_cons, ih nodup.2, keys_alter, List.map_cons]
    by_cases known : first ∈ start.keys
    · simp [known]
    · have others : (rest.map Prod.fst).filter (· ∉ start.keys ++ [first]) =
          (rest.map Prod.fst).filter (· ∉ start.keys) := by
        refine List.filter_congr fun key present => ?_
        have differ : key ≠ first := fun same => nodup.1 (same ▸ present)
        simp [differ]
      simp only [known, if_false, others]
      simp [known]

theorem get?_foldl_alter (later : Dict β) (start : Dict α) (key : String) :
    (later.entries.foldl (fun dict pair => dict.alter pair.1 (f · pair.2)) start).get? key =
      match later.get? key with
      | some value => some (f (start.get? key) value)
      | none => start.get? key :=
  get?_foldl f later.nodup start key

theorem keys_foldl_alter (later : Dict β) (start : Dict α) :
    (later.entries.foldl (fun dict pair => dict.alter pair.1 (f · pair.2)) start).keys =
      start.keys ++ later.keys.filter (· ∉ start.keys) :=
  keys_foldl f later.nodup start

end Fold

theorem entries_ofList {pairs : List (String × α)} (nodup : (pairs.map Prod.fst).Nodup) :
    (ofList pairs).entries = pairs := by
  induction pairs using List.reverseRecOn with
  | nil => rfl
  | append_singleton pairs last ih =>
    rw [List.map_append, List.nodup_append] at nodup
    have absent : last.1 ∉ pairs.map Prod.fst := by
      intro twice
      exact nodup.2.2 _ twice _ (List.mem_singleton_self _) rfl
    have added : (ofList (pairs ++ [last])).entries =
        Assoc.alter last.1 (fun _ => last.2) (ofList pairs).entries := by
      rw [ofList, List.foldl_append]
      rfl
    rw [added, ih nodup.1, Assoc.alter_of_not_mem absent]

theorem get?_ofList {pairs : List (String × α)} (nodup : (pairs.map Prod.fst).Nodup)
    (key : String) : (ofList pairs).get? key = pairs.lookup key := by
  have found := get?_foldl (fun _ value => value) nodup (empty : Dict α) key
  rw [ofList]
  refine found.trans ?_
  cases pairs.lookup key <;> rfl

theorem get?_ofList_append (first : List (String × α)) (later : Dict α) (key : String) :
    (ofList (first ++ later.entries)).get? key =
      (later.get? key).or ((ofList first).get? key) := by
  rw [ofList, List.foldl_append]
  refine (get?_foldl_alter (fun _ value => value) later (ofList first) key).trans ?_
  cases later.get? key <;> rfl

end Dict

end Visibility
