import Visibility.Proofs.Ordered.Dict

set_option autoImplicit false
set_option relaxedAutoImplicit false

/-!
Dictionaries over a monoid.

Where two dictionaries are joined, the values at a key of both are combined, and the new keys come after
all others.  If combining is associative and has a neutral element, then so is joining, with the empty
dictionary; the keys of many dictionaries that are joined are theirs in the order of first appearance,
and each value is the combination of theirs.
-/

namespace Visibility

theorem eraseDups_of_nodup {keys : List String} (nodup : keys.Nodup) : keys.eraseDups = keys := by
  induction keys with
  | nil => rfl
  | cons key rest ih =>
    obtain ⟨absent, nodupRest⟩ := List.nodup_cons.mp nodup
    have kept : rest.filter (fun other => !other == key) = rest := by
      refine List.filter_eq_self.mpr fun other present => ?_
      have differ : other ≠ key := fun same => absent (same ▸ present)
      simp [differ]
    rw [List.eraseDups_cons, kept, ih nodupRest]

namespace Dict

variable {α : Type} {combine : α → α → α} {neutral : α} {first later : Dict α}

theorem ext_getD (neutral : α) (keys : first.keys = later.keys)
    (values : ∀ key, (first.get? key).getD neutral = (later.get? key).getD neutral) :
    first = later := by
  refine ext_get? keys fun key => ?_
  have value := values key
  cases found : first.get? key with
  | none =>
    have absent : key ∉ later.keys := keys ▸ first.get?_eq_none_iff.mp found
    exact (later.get?_eq_none_iff.mpr absent).symm
  | some held =>
    have present : later.get? key ≠ none := by
      intro missing
      have absent : key ∉ first.keys := keys ▸ later.get?_eq_none_iff.mp missing
      rw [first.get?_eq_none_iff.mpr absent] at found
      contradiction
    obtain ⟨other, foundLater⟩ := Option.ne_none_iff_exists'.mp present
    rw [found, foundLater] at value
    rw [foundLater]
    exact congrArg some value

/-- Combines the values of a later dictionary with those that are there, key by key. -/
def join (combine : α → α → α) (neutral : α) (first later : Dict α) : Dict α :=
  later.entries.foldl
    (fun dict pair => dict.alter pair.1 fun value? => combine (value?.getD neutral) pair.2) first

theorem keys_join : (join combine neutral first later).keys =
    first.keys ++ later.keys.filter (· ∉ first.keys) :=
  keys_foldl_alter (fun value? value => combine (value?.getD neutral) value) later first

theorem mem_keys_join {key : String} :
    key ∈ (join combine neutral first later).keys ↔ key ∈ first.keys ∨ key ∈ later.keys := by
  rw [keys_join, List.mem_append, List.mem_filter]
  by_cases known : key ∈ first.keys <;> simp [known]

theorem getD_join [Std.LawfulIdentity combine neutral] (key : String) :
    ((join combine neutral first later).get? key).getD neutral =
      combine ((first.get? key).getD neutral) ((later.get? key).getD neutral) := by
  have joined := get?_foldl_alter (fun value? value => combine (value?.getD neutral) value) later
    first key
  rw [show (join combine neutral first later).get? key = _ from joined]
  cases later.get? key with
  | none =>
    rw [Option.getD_none]
    exact (Std.LawfulRightIdentity.right_id _).symm
  | some value => rfl

theorem keys_join_assoc (first second third : Dict α) :
    (join combine neutral (join combine neutral first second) third).keys =
      (join combine neutral first (join combine neutral second third)).keys := by
  have new : third.keys.filter (· ∉ (join combine neutral first second).keys) =
      (third.keys.filter (· ∉ second.keys)).filter (· ∉ first.keys) := by
    rw [List.filter_filter]
    refine List.filter_congr fun key _ => ?_
    simp only [mem_keys_join, not_or, Bool.decide_and]
  calc
    _ = (join combine neutral first second).keys ++
          (third.keys.filter (· ∉ second.keys)).filter (· ∉ first.keys) := by rw [keys_join, new]
    _ = first.keys ++ (join combine neutral second third).keys.filter (· ∉ first.keys) := by
      rw [keys_join, keys_join, List.filter_append, List.append_assoc]
    _ = _ := keys_join.symm

instance [Std.Associative combine] [Std.LawfulIdentity combine neutral] :
    Std.Associative (join combine neutral) where
  assoc first second third := by
    refine ext_getD neutral (keys_join_assoc first second third) fun key => ?_
    simp only [getD_join]
    exact Std.Associative.assoc _ _ _

instance [Std.LawfulIdentity combine neutral] :
    Std.LawfulIdentity (join combine neutral) (empty : Dict α) where
  left_id dict := by
    refine ext_getD neutral ?_ fun key => ?_
    · rw [keys_join]
      simp
    · rw [getD_join]
      exact Std.LawfulLeftIdentity.left_id _
  right_id _ := rfl

theorem keys_foldl_join (dicts : List (Dict α)) :
    (dicts.foldl (join combine neutral) empty).keys = (dicts.flatMap keys).eraseDups := by
  induction dicts using List.reverseRecOn with
  | nil => rfl
  | append_singleton dicts last ih =>
    have nodup : (last.keys.removeAll (dicts.flatMap keys)).Nodup := last.nodup_keys.filter _
    rw [List.foldl_append, List.foldl_cons, List.foldl_nil, keys_join, ih, List.flatMap_append,
      List.flatMap_singleton, List.eraseDups_append, eraseDups_of_nodup nodup]
    refine congrArg _ (List.filter_congr fun key _ => ?_)
    simp only [List.mem_eraseDups, decide_not, List.elem_eq_mem]

/-- Each value of dictionaries that are joined is the combination of theirs, in order. -/
theorem getD_foldl_join [Std.LawfulIdentity combine neutral] (dicts : List (Dict α))
    (key : String) :
    ((dicts.foldl (join combine neutral) empty).get? key).getD neutral =
      (dicts.map fun dict => (dict.get? key).getD neutral).foldl combine neutral := by
  induction dicts using List.reverseRecOn with
  | nil => rfl
  | append_singleton dicts last ih =>
    rw [List.foldl_append, List.foldl_cons, List.foldl_nil, getD_join, ih, List.map_append,
      List.foldl_append]
    rfl

end Dict

end Visibility
