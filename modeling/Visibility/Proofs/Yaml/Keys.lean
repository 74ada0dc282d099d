import Mathlib.Tactic.SplitIfs
import Visibility.Yaml.Source

set_option autoImplicit false
set_option relaxedAutoImplicit false

/-!
Maps that are read from a text repeat no key.

A pair is put behind the pairs of its map only where its key is new to them, so the keys of each map are
apart, also inside other values.
-/

namespace Visibility

namespace Decoding

variable {α β : Type} {holds : α → Prop} {kept : β → Prop} {reading : Decoding α}

/-- Whether a condition holds of all that a reader gives, whatever references it may follow. -/
def Ensures (holds : α → Prop) (reading : Decoding α) : Prop :=
  ∀ budget value left, reading.run budget = some (value, left) → holds value

theorem Ensures.any : Ensures (fun _ => True) reading :=
  fun _ _ _ _ => trivial

theorem Ensures.pure {value : α} (held : holds value) : Ensures holds (pure value) := by
  intro budget value left given
  cases given
  exact held

theorem Ensures.failure : Ensures holds failure := by
  intro budget value left given
  contradiction

theorem Ensures.lift {result : Option α} (each : ∀ value, result = some value → holds value) :
    Ensures holds (StateT.lift result) := by
  intro budget value left given
  obtain ⟨found, present, rest⟩ := Option.bind_eq_some_iff.mp given
  cases rest
  exact each value present

theorem Ensures.bind {first : Decoding β} {next : β → Decoding α} (ensured : Ensures kept first)
    (later : ∀ value, kept value → Ensures holds (next value)) : Ensures holds (first >>= next) := by
  intro budget value left given
  obtain ⟨⟨between, rest⟩, present, followed⟩ := Option.bind_eq_some_iff.mp given
  exact later between (ensured budget between rest present) rest value left followed

theorem Ensures.mapM {items : List β} {read : β → Decoding α}
    (each : ∀ item, Ensures holds (read item)) :
    Ensures (fun values => ∀ value ∈ values, holds value) (items.mapM read) := by
  induction items with
  | nil =>
    rw [List.mapM_nil]
    exact .pure nofun
  | cons item rest ih =>
    rw [List.mapM_cons]
    refine (each item).bind fun first held => ih.bind fun others heldAll => .pure ?_
    exact List.forall_mem_cons.mpr ⟨held, heldAll⟩

theorem Ensures.foldlM {items : List β} {step : α → β → Decoding α} {start : α}
    (held : holds start) (each : ∀ value item, holds value → Ensures holds (step value item)) :
    Ensures holds (items.foldlM step start) := by
  induction items generalizing start with
  | nil => exact .pure held
  | cons item rest ih =>
    rw [List.foldlM_cons]
    exact (each start item held).bind fun next heldNext => ih heldNext

end Decoding

namespace Yaml

def Pairs.Apart (pairs : Pairs) : Prop :=
  pairs.Pairwise fun first later => first.1.same later.1 = false

theorem Pairs.Apart.nodup {α : Type} (body : α → Yaml) {entries : List (String × α)}
    (apart : Pairs.Apart (entries.map fun entry => (string entry.1, body entry.2))) :
    (entries.map Prod.fst).Nodup := by
  refine List.pairwise_map.mpr ((List.pairwise_map.mp apart).imp fun unlike equal => ?_)
  simp [same, equal] at unlike

/-- Values whose maps have keys that are apart, at every depth. -/
inductive KeysApart : Yaml → Prop where
  | null : KeysApart null
  | bool (flag : Bool) : KeysApart (bool flag)
  | number (value : Number) : KeysApart (number value)
  | string (text : String) : KeysApart (string text)
  | sequence {items : List Yaml} (each : ∀ item ∈ items, KeysApart item) :
      KeysApart (sequence items)
  | mapping {pairs : Pairs} (apart : pairs.Apart) (keys : ∀ pair ∈ pairs, KeysApart pair.1)
      (values : ∀ pair ∈ pairs, KeysApart pair.2) : KeysApart (mapping pairs)
  | tagged {value : Yaml} (tag : String) (below : KeysApart value) : KeysApart (tagged tag value)

theorem KeysApart.withTag {value : Yaml} (apart : value.KeysApart) (tag : Option TagText) :
    (withTag tag value).KeysApart := by
  unfold Yaml.withTag
  split
  · exact apart.tagged _
  · exact apart

theorem keysApart_resolve? {text : String} {value : Yaml}
    (read : Scalar.resolve? text = some value) : value.KeysApart := by
  unfold Scalar.resolve? at read
  grind [KeysApart]

theorem keysApart_value? {kind : Option String} {plain : Bool} {text : String} {value : Yaml}
    (read : Scalar.value? kind plain text = some value) : value.KeysApart := by
  unfold Scalar.value? at read
  split at read
  · split at read
    · exact keysApart_resolve? read
    · cases read
      exact .string _
  · split_ifs at read
    · obtain ⟨flag, _, rfl⟩ := Option.map_eq_some_iff.mp read
      exact .bool flag
    · obtain ⟨n, _, rfl⟩ := Option.map_eq_some_iff.mp read
      exact .number _
    · obtain ⟨number, _, rfl⟩ := Option.map_eq_some_iff.mp read
      exact .number _
    · cases read
      exact .null
    · cases read
      exact .string _

theorem keysApart_scalarValue? {tag : Option TagText} {plain : Bool} {text : String} {value : Yaml}
    (read : scalarValue? tag plain text = some value) : value.KeysApart := by
  obtain ⟨bare, readBare, rfl⟩ := Option.map_eq_some_iff.mp read
  exact (keysApart_value? readBare).withTag tag

theorem keysApart_addPair? {pairs more : Pairs} {key value : Yaml}
    (apart : (mapping pairs).KeysApart) (apartKey : key.KeysApart) (apartValue : value.KeysApart)
    (added : addPair? pairs key value = some more) : (mapping more).KeysApart := by
  unfold addPair? at added
  split at added
  · contradiction
  · next new =>
    cases added
    cases apart with
    | mapping apart keys values =>
      have unlike : ∀ pair ∈ pairs, pair.1.same key = false := by
        simpa using new
      refine .mapping ?_ ?_ ?_
      · refine List.pairwise_append.mpr ⟨apart, List.pairwise_singleton _ _, fun pair present => ?_⟩
        exact List.forall_mem_singleton.mpr (unlike pair present)
      · exact List.forall_mem_append.mpr ⟨keys, List.forall_mem_singleton.mpr apartKey⟩
      · exact List.forall_mem_append.mpr ⟨values, List.forall_mem_singleton.mpr apartValue⟩

open Decoding in
theorem ensures_valueOf (anchors : List (Nat × Node Nat)) (depth : Nat) (node : Node Nat) :
    Ensures KeysApart (valueOf anchors depth node) := by
  induction depth generalizing node with
  | zero =>
    unfold valueOf
    refine Ensures.any.bind fun found _ => ?_
    cases found with
    | scalar props plain text => exact .lift fun _ => keysApart_scalarValue?
    | _ => exact .failure
  | succ depth ih =>
    unfold valueOf
    refine Ensures.any.bind fun found _ => ?_
    cases found with
    | reference => exact .failure
    | scalar props plain text => exact .lift fun _ => keysApart_scalarValue?
    | sequence props items =>
      refine (Ensures.mapM ih).bind fun values each => .pure ?_
      exact (KeysApart.sequence each).withTag _
    | mapping props pairs =>
      -- the pairs so far are a map whose keys are apart; what each new pair is read from follows aliases
      -- of its own, so that only the depth goes down
      have filled : Ensures (fun pairs => (mapping pairs).KeysApart) (pairs.foldlM (fun done pair => do
          let key ← valueOf anchors depth pair.1
          let value ← valueOf anchors depth pair.2
          StateT.lift (addPair? done key value)) []) := by
        refine .foldlM (.mapping .nil nofun nofun) fun done pair apart => ?_
        refine (ih pair.1).bind fun key apartKey => (ih pair.2).bind fun value apartValue => ?_
        exact .lift fun _ => keysApart_addPair? apart apartKey apartValue
      exact filled.bind fun done apart => .pure (apart.withTag _)

/-- A value that is read from a text has keys that are apart. -/
theorem keysApart_read? {text : String} {value : Yaml} (read : read? text = some value) :
    value.KeysApart := by
  obtain ⟨document?, _, given⟩ := Option.bind_eq_some_iff.mp read
  cases document? with
  | none =>
    cases given
    exact .null
  | some document =>
    obtain ⟨⟨_, left⟩, run, rfl⟩ := Option.map_eq_some_iff.mp given
    exact ensures_valueOf _ _ _ _ _ left run

end Yaml

end Visibility
