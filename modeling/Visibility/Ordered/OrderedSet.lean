set_option autoImplicit false
set_option relaxedAutoImplicit false

/-!
Sets that keep the order in which their members were first inserted.
-/

namespace Visibility

/-- Members without repetition, in the order of first insertion. -/
structure OrderedSet (α : Type) where
  toList : List α
  nodup : toList.Nodup

namespace OrderedSet

variable {α : Type}

def empty : OrderedSet α := ⟨[], by simp⟩

instance : Inhabited (OrderedSet α) := ⟨empty⟩

instance : EmptyCollection (OrderedSet α) := ⟨empty⟩

instance : Membership α (OrderedSet α) := ⟨fun set a => a ∈ set.toList⟩

instance [DecidableEq α] (a : α) (set : OrderedSet α) : Decidable (a ∈ set) :=
  inferInstanceAs (Decidable (a ∈ set.toList))

/-- Appends a new member; a member that is there already keeps its place. -/
def insert [DecidableEq α] (set : OrderedSet α) (a : α) : OrderedSet α :=
  if absent : a ∈ set.toList then set
  else ⟨set.toList ++ [a], by
    rw [List.nodup_append]
    refine ⟨set.nodup, by simp, ?_⟩
    intro b hb c hc
    rw [List.mem_singleton] at hc
    exact fun h => absent (hc ▸ h ▸ hb)⟩

def isEmpty (set : OrderedSet α) : Bool :=
  set.toList.isEmpty

@[ext] theorem ext {first second : OrderedSet α} (same : first.toList = second.toList) :
    first = second := by
  cases first
  cases second
  cases same
  rfl

theorem mem_def (set : OrderedSet α) (a : α) : a ∈ set ↔ a ∈ set.toList := Iff.rfl

@[simp] theorem not_mem_empty (a : α) : ¬ a ∈ (empty : OrderedSet α) := by
  simp [mem_def, empty]

theorem toList_insert [DecidableEq α] (set : OrderedSet α) (a : α) :
    (set.insert a).toList = if a ∈ set.toList then set.toList else set.toList ++ [a] := by
  unfold insert
  split <;> rfl

@[simp] theorem mem_insert [DecidableEq α] (set : OrderedSet α) (a b : α) :
    b ∈ set.insert a ↔ b ∈ set ∨ b = a := by
  rw [mem_def, mem_def, toList_insert]
  split
  · next present =>
    constructor
    · exact Or.inl
    · rintro (h | h)
      · exact h
      · exact h ▸ present
  · simp

end OrderedSet

end Visibility
