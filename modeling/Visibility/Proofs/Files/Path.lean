import Mathlib.Data.String.Basic
import Visibility.Files.Discovery
import Visibility.Proofs.Text.Split

set_option autoImplicit false
set_option relaxedAutoImplicit false

/-!
Paths below other paths, and the order of paths.

A name that is joined to a path is its last part, and all before it is as it was, but for a
separator at the end.
-/

namespace Visibility

theorem Text.splitAt_ne_nil (isSep : Char → Bool) (cs : List Char) : splitAt isSep cs ≠ [] := by
  cases cs with
  | nil => simp [splitAt]
  | cons c cs =>
    rw [splitAt]
    split
    · simp
    · split <;> simp

theorem Text.splitAt_append_cons {isSep : Char → Bool} {sep : Char} (marks : isSep sep)
    (before after : List Char) :
    splitAt isSep (before ++ sep :: after) = splitAt isSep before ++ splitAt isSep after := by
  induction before with
  | nil => simp [splitAt, marks]
  | cons c before ih =>
    rw [List.cons_append, splitAt, splitAt, ih]
    by_cases here : isSep c
    · simp [here]
    · rw [if_neg here, if_neg here]
      cases parts : splitAt isSep before with
      | nil => exact absurd parts (splitAt_ne_nil isSep before)
      | cons part rest => rfl

namespace Path

/-- What a directory can call an entry. -/
structure IsName (name : String) : Prop where
  nonempty : name ≠ ""
  whole : '/' ∉ name.toList
  notHere : name ≠ "."
  notAbove : name ≠ ".."

instance (name : String) : Decidable (IsName name) :=
  decidable_of_iff (name ≠ "" ∧ '/' ∉ name.toList ∧ name ≠ "." ∧ name ≠ "..")
    ⟨fun ⟨nonempty, whole, notHere, notAbove⟩ => ⟨nonempty, whole, notHere, notAbove⟩,
      fun ⟨nonempty, whole, notHere, notAbove⟩ => ⟨nonempty, whole, notHere, notAbove⟩⟩

variable {base name : String}

theorem IsName.not_isAbsolute (named : IsName name) : isAbsolute name = false := by
  rw [isAbsolute, decide_eq_false_iff_not]
  intro leads
  exact named.whole (List.mem_of_head? leads)

theorem parts_append (before after : String) :
    parts (before ++ "/" ++ after) = parts before ++ parts after := by
  have spelled : (before ++ "/" ++ after).toList = before.toList ++ '/' :: after.toList := by
    simp
  simp only [parts, spelled]
  rw [Text.splitAt_append_cons (by simp), List.map_append]

theorem IsName.parts_eq (named : IsName name) : parts name = [name] := by
  have alone : ∀ c ∈ name.toList, decide (c = '/') = false := by
    intro c present
    rw [decide_eq_false_iff_not]
    rintro rfl
    exact named.whole present
  simp [parts, Text.splitAt_of_forall_not alone]

theorem isAbsolute_append (nonempty : base ≠ "") (rest : String) :
    isAbsolute (base ++ rest) = isAbsolute base := by
  have first : base.toList ≠ [] := fun empty => nonempty (String.toList_eq_nil_iff.mp empty)
  rw [isAbsolute, isAbsolute, String.toList_append, List.head?_append_of_ne_nil _ first]

theorem exists_parts_join (nonempty : base ≠ "") (named : IsName name) :
    ∃ steps, parts (join base name) = steps ++ [name] ∧
      (parts base = steps ∨ parts base = steps ++ [""]) ∧
        isAbsolute (join base name) = isAbsolute base := by
  have relative : (isAbsolute name || base.isEmpty) = false := by
    simp [named.not_isAbsolute, nonempty]
  rw [join, relative]
  simp only [Bool.false_eq_true, if_false]
  split
  · next closed =>
    obtain ⟨start, split⟩ := List.getLast?_eq_some_iff.mp closed
    obtain rfl : base = String.ofList start ++ "/" ++ "" := by
      rw [← String.toList_inj, split]
      simp
    refine ⟨parts (String.ofList start), ?_, .inr (parts_append _ ""), isAbsolute_append nonempty _⟩
    rw [String.append_empty, parts_append, named.parts_eq]
  · refine ⟨parts base, ?_, .inl rfl, ?_⟩
    · rw [parts_append, named.parts_eq]
    · rw [String.append_assoc, isAbsolute_append nonempty]

theorem eq_empty_of_parts (empty : parts base = [""]) : base = "" := by
  by_cases separated : '/' ∈ base.toList
  · obtain ⟨before, after, split⟩ := List.append_of_mem separated
    have several := congrArg List.length empty
    rw [parts, split, Text.splitAt_append_cons (by simp)] at several
    have first := List.length_pos_iff.mpr (Text.splitAt_ne_nil (· = '/') before)
    have second := List.length_pos_iff.mpr (Text.splitAt_ne_nil (· = '/') after)
    simp only [List.length_map, List.length_append, List.length_singleton] at several
    omega
  · have alone : ∀ c ∈ base.toList, decide (c = '/') = false := by
      intro c present
      rw [decide_eq_false_iff_not]
      rintro rfl
      exact separated present
    simpa [parts, Text.splitAt_of_forall_not alone] using empty

theorem keys_join (nonempty : base ≠ "") (named : IsName name) :
    keys (join base name) = keys base ++ [(3, name)] := by
  obtain ⟨steps, spelled, before, absolute⟩ := exists_parts_join nonempty named
  have idle : !(name.isEmpty || decide (name = ".")) := by
    simp [named.nonempty, named.notHere]
  have kept : (if name = "." then ((1 : Nat), "") else if name = ".." then (2, "") else (3, name)) =
      (3, name) := by
    rw [if_neg named.notHere, if_neg named.notAbove]
  cases steps with
  | nil =>
    rcases before with none_ | empty
    · exact absurd (List.map_eq_nil_iff.mp none_) (Text.splitAt_ne_nil _ _)
    · exact absurd (eq_empty_of_parts empty) nonempty
  | cons first rest =>
    have joined : parts (join base name) = first :: (rest ++ [name]) := spelled
    rw [keys, joined, absolute, keys]
    dsimp only
    rw [List.filter_append, List.map_append, List.filter_cons_of_pos, List.filter_nil]
    · rcases before with before | before
      · rw [before]
        dsimp only
        rw [List.append_assoc]
        exact congrArg (fun key => _ ++ (_ ++ [key])) kept
      · rw [before, List.cons_append]
        dsimp only
        rw [List.filter_append, List.filter_cons_of_neg, List.filter_nil, List.append_nil,
          List.append_assoc]
        · exact congrArg (fun key => _ ++ (_ ++ [key])) kept
        · exact Bool.false_ne_true
    · exact idle

theorem eq_of_keys_join_eq {other otherName : String} (nonempty : base ≠ "") (named : IsName name)
    (otherNonempty : other ≠ "") (otherNamed : IsName otherName)
    (same : keys (join base name) = keys (join other otherName)) :
    keys base = keys other ∧ name = otherName := by
  rw [keys_join nonempty named, keys_join otherNonempty otherNamed] at same
  obtain ⟨sameKeys, sameName⟩ := List.append_inj' same rfl
  exact ⟨sameKeys, congrArg Prod.snd (List.cons.inj sameName).1⟩

theorem keysLe_cons_iff {rank otherRank : Nat} {name otherName : String}
    {rest others : List (Nat × String)} :
    keysLe ((rank, name) :: rest) ((otherRank, otherName) :: others) ↔
      rank < otherRank ∨
        rank = otherRank ∧ (name < otherName ∨ name = otherName ∧ keysLe rest others) := by
  rw [keysLe]
  by_cases sameRank : rank = otherRank
  · subst sameRank
    by_cases sameName : name = otherName
    · subst sameName
      simp
    · simp [sameName]
  · simp [sameRank]

theorem keysLe_total (first second : List (Nat × String)) :
    keysLe first second ∨ keysLe second first := by
  induction first generalizing second with
  | nil => exact .inl rfl
  | cons key rest ih =>
    cases second with
    | nil => exact .inr rfl
    | cons other others =>
      rw [keysLe_cons_iff, keysLe_cons_iff]
      rcases lt_trichotomy key.1 other.1 with below | sameRank | above
      · exact .inl (.inl below)
      · rcases lt_trichotomy key.2 other.2 with below | sameName | above
        · exact .inl (.inr ⟨sameRank, .inl below⟩)
        · exact (ih others).imp (fun le => .inr ⟨sameRank, .inr ⟨sameName, le⟩⟩)
            fun le => .inr ⟨sameRank.symm, .inr ⟨sameName.symm, le⟩⟩
        · exact .inr (.inr ⟨sameRank.symm, .inl above⟩)
      · exact .inr (.inl above)

theorem keysLe_trans {first second third : List (Nat × String)} (start : keysLe first second)
    (next : keysLe second third) : keysLe first third := by
  induction first generalizing second third with
  | nil => rfl
  | cons key rest ih =>
    cases second with
    | nil => contradiction
    | cons middle middles =>
      cases third with
      | nil => contradiction
      | cons last lasts =>
        rw [keysLe_cons_iff] at start next ⊢
        rcases start with below | ⟨sameRank, start⟩
        · rcases next with later | ⟨sameLater, _⟩
          · exact .inl (below.trans later)
          · exact .inl (sameLater ▸ below)
        · rcases next with later | ⟨sameLater, next⟩
          · exact .inl (sameRank ▸ later)
          · refine .inr ⟨sameRank.trans sameLater, ?_⟩
            rcases start with below | ⟨sameName, start⟩
            · rcases next with later | ⟨sameNext, _⟩
              · exact .inl (below.trans later)
              · exact .inl (sameNext ▸ below)
            · rcases next with later | ⟨sameNext, next⟩
              · exact .inl (sameName ▸ later)
              · exact .inr ⟨sameName.trans sameNext, ih start next⟩

theorem keysLe_antisymm {first second : List (Nat × String)} (above : keysLe first second)
    (below : keysLe second first) : first = second := by
  induction first generalizing second with
  | nil =>
    cases second with
    | nil => rfl
    | cons => contradiction
  | cons key rest ih =>
    cases second with
    | nil => contradiction
    | cons other others =>
      rw [keysLe_cons_iff] at above below
      rcases above with less | ⟨sameRank, above⟩
      · rcases below with more | ⟨sameRank, _⟩
        · exact absurd more less.asymm
        · exact absurd sameRank less.ne'
      · rcases below with more | ⟨_, below⟩
        · exact absurd sameRank more.ne'
        · rcases above with less | ⟨sameName, above⟩
          · rcases below with more | ⟨sameName, _⟩
            · exact absurd more less.asymm
            · exact absurd sameName less.ne'
          · rcases below with more | ⟨_, below⟩
            · exact absurd sameName more.ne'
            · rw [ih above below, Prod.ext sameRank sameName]

theorem le_total (first second : Path) : (le first second || le second first) = true :=
  Bool.or_eq_true_iff.mpr (keysLe_total (keys first) (keys second))

theorem le_trans (first second third : Path) (start : le first second) (next : le second third) :
    le first third :=
  keysLe_trans start next

end Path

end Visibility
