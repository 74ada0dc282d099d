import Visibility.Text.Split

set_option autoImplicit false
set_option relaxedAutoImplicit false

/-!
What cutting and splitting give, in terms of appended lists.
-/

namespace Visibility.Text

theorem afterLead?_eq_some_iff {lead cs rest : List Char} :
    afterLead? lead cs = some rest ↔ cs = lead ++ rest := by
  fun_induction afterLead? lead cs with
  | case1 cs => simp
  | case2 l lead => simp
  | case3 lead c cs ih => simp [ih]
  | case4 l lead c cs differ =>
    have apart : ¬ (c = l) := fun same => differ same.symm
    simp [apart]

theorem isSome_afterLead?_iff {lead cs : List Char} :
    (afterLead? lead cs).isSome ↔ lead <+: cs := by
  simp only [Option.isSome_iff_exists, afterLead?_eq_some_iff]
  exact ⟨fun ⟨rest, spelled⟩ => ⟨rest, spelled.symm⟩, fun ⟨rest, spelled⟩ => ⟨rest, spelled.symm⟩⟩

theorem startsWith_iff {lead text : String} :
    startsWith lead text = true ↔ ∃ rest, text.toList = lead.toList ++ rest := by
  rw [startsWith, Option.isSome_iff_exists]
  simp only [afterLead?_eq_some_iff]

theorem cutLead?_append (lead rest : String) : cutLead? lead (lead ++ rest) = some rest := by
  have spelled : (lead ++ rest).toList = lead.toList ++ rest.toList := String.toList_append
  rw [cutLead?, afterLead?_eq_some_iff.mpr spelled, Option.map_some, String.ofList_toList]

theorem eq_append_of_splitFirst? {sep cs before after : List Char}
    (split : splitFirst? sep cs = some (before, after)) : cs = before ++ (sep ++ after) := by
  induction cs generalizing before with
  | nil =>
    obtain ⟨_, found, same⟩ := Option.map_eq_some_iff.mp split
    cases same
    have spelled := afterLead?_eq_some_iff.mp found
    exact spelled
  | cons c cs ih =>
    rw [splitFirst?] at split
    cases found : afterLead? sep (c :: cs) with
    | some rest =>
      rw [found] at split
      cases split
      have spelled := afterLead?_eq_some_iff.mp found
      exact spelled
    | none =>
      rw [found] at split
      obtain ⟨⟨first, rest⟩, later, same⟩ := Option.map_eq_some_iff.mp split
      cases same
      rw [List.cons_append, ← ih later]

section Separator

variable {sep : Char}

theorem splitFirst?_append_cons {before : List Char} (absent : sep ∉ before)
    (seps after : List Char) :
    splitFirst? (sep :: seps) (before ++ (sep :: seps ++ after)) = some (before, after) := by
  induction before with
  | nil =>
    have found : afterLead? (sep :: seps) (sep :: (seps ++ after)) = some after :=
      afterLead?_eq_some_iff.mpr rfl
    rw [List.nil_append, List.cons_append, splitFirst?, found]
  | cons c before ih =>
    have differ : ¬ (sep = c) := fun same => absent (by simp [same])
    have later : sep ∉ before := fun present => absent (List.mem_cons_of_mem c present)
    rw [List.cons_append, splitFirst?, afterLead?, if_neg differ, ih later]
    rfl

theorem splitFirst?_append {before : List Char} (absent : sep ∉ before) (after : List Char) :
    splitFirst? [sep] (before ++ sep :: after) = some (before, after) :=
  splitFirst?_append_cons absent [] after

theorem splitFirst?_of_not_mem {cs : List Char} (absent : sep ∉ cs) :
    splitFirst? [sep] cs = none := by
  induction cs with
  | nil => rfl
  | cons c cs ih =>
    have differ : ¬ (sep = c) := fun same => absent (by simp [same])
    have later : sep ∉ cs := fun present => absent (List.mem_cons_of_mem c present)
    simp [splitFirst?, afterLead?, differ, ih later]

theorem cutFirst?_append {before : String} (absent : sep ∉ before.toList) (after : String) :
    cutFirst? (String.singleton sep) (before ++ String.singleton sep ++ after) =
      some (before, after) := by
  have spelled : (before ++ String.singleton sep ++ after).toList =
      before.toList ++ sep :: after.toList := by
    simp
  have alone : (String.singleton sep).toList = [sep] := by simp
  rw [cutFirst?, spelled, alone, splitFirst?_append absent]
  simp

theorem cutFirst?_of_not_mem {text : String} (absent : sep ∉ text.toList) :
    cutFirst? (String.singleton sep) text = none := by
  have alone : (String.singleton sep).toList = [sep] := by simp
  rw [cutFirst?, alone, splitFirst?_of_not_mem absent]
  rfl

theorem cutFirst?_cases (sep : Char) (text : String) :
    sep ∉ text.toList ∧ cutFirst? (String.singleton sep) text = none ∨
      ∃ before after, sep ∉ before.toList ∧ text = before ++ String.singleton sep ++ after ∧
        cutFirst? (String.singleton sep) text = some (before, after) := by
  by_cases present : sep ∈ text.toList
  · right
    obtain ⟨before, after, split, absent⟩ := List.eq_append_cons_of_mem present
    have absentThere : sep ∉ (String.ofList before).toList := by
      rw [String.toList_ofList]
      exact absent
    have spelled : text = String.ofList before ++ String.singleton sep ++ String.ofList after := by
      rw [← String.toList_inj, split]
      simp
    refine ⟨String.ofList before, String.ofList after, absentThere, spelled, ?_⟩
    rw [spelled]
    exact cutFirst?_append absentThere (String.ofList after)
  · exact .inl ⟨present, cutFirst?_of_not_mem present⟩

end Separator

theorem hasPart_iff {part cs : List Char} : hasPart part cs = true ↔ part <:+: cs := by
  induction cs with
  | nil =>
    rw [hasPart, splitFirst?, Option.isSome_map, isSome_afterLead?_iff]
    simp
  | cons c cs ih =>
    rw [List.infix_cons_iff, ← ih, ← isSome_afterLead?_iff]
    simp only [hasPart, splitFirst?]
    cases afterLead? part (c :: cs) with
    | none => simp
    | some after => simp

theorem infix_append_cons_iff {part before after : List Char} {c : Char} (absent : c ∉ part) :
    part <:+: before ++ c :: after ↔ part <:+: before ∨ part <:+: after := by
  constructor
  · rintro ⟨first, last, split⟩
    rw [List.append_assoc, List.append_eq_append_iff] at split
    rcases split with ⟨middle, rfl, same⟩ | ⟨middle, rfl, same⟩
    · rw [List.append_eq_append_iff] at same
      rcases same with ⟨more, rfl, same⟩ | ⟨more, rfl, same⟩
      · exact .inl ⟨first, more, by simp⟩
      · cases more with
        | nil => exact .inl ⟨first, [], by simp⟩
        | cons d more =>
          rw [List.cons_append, List.cons.injEq] at same
          exact absurd (by simp [same.1]) absent
    · cases middle with
      | nil =>
        cases part with
        | nil => exact .inr (List.nil_infix)
        | cons d part =>
          rw [List.nil_append, List.cons_append, List.cons.injEq] at same
          exact absurd (by simp [same.1]) absent
      | cons d middle =>
        rw [List.cons_append, List.cons.injEq] at same
        exact .inr ⟨middle, last, by rw [same.2, List.append_assoc]⟩
  · rintro (⟨first, last, rfl⟩ | ⟨first, last, rfl⟩)
    · exact ⟨first, last ++ c :: after, by simp⟩
    · exact ⟨before ++ c :: first, last, by simp⟩

theorem prefix_head_splitAt {isSep : Char → Bool} {lead cs : List Char}
    (absent : ∀ c ∈ lead, isSep c = false) (starts : lead <+: cs) :
    ∃ first rest, splitAt isSep cs = first :: rest ∧ lead <+: first := by
  induction cs generalizing lead with
  | nil => exact ⟨[], [], rfl, starts⟩
  | cons c cs ih =>
    cases lead with
    | nil =>
      have none : ∀ c ∈ ([] : List Char), isSep c = false := by simp
      obtain ⟨first, rest, split, _⟩ := ih none List.nil_prefix
      by_cases here : isSep c
      · exact ⟨[], splitAt isSep cs, by simp [splitAt, here], List.nil_prefix⟩
      · exact ⟨c :: first, rest, by simp [splitAt, here, split], List.nil_prefix⟩
    | cons l lead =>
      obtain ⟨rfl, later⟩ := List.cons_prefix_cons.mp starts
      obtain ⟨here, absentLater⟩ := List.forall_mem_cons.mp absent
      obtain ⟨first, rest, split, startsFirst⟩ := ih absentLater later
      exact ⟨l :: first, rest, by simp [splitAt, here, split],
        List.cons_prefix_cons.mpr ⟨rfl, startsFirst⟩⟩

theorem splitAt_of_forall_not {isSep : Char → Bool} {cs : List Char}
    (absent : ∀ c ∈ cs, isSep c = false) : splitAt isSep cs = [cs] := by
  induction cs with
  | nil => rfl
  | cons c cs ih =>
    have here : isSep c = false := absent c List.mem_cons_self
    have later : splitAt isSep cs = [cs] := ih fun d present => absent d (List.mem_cons_of_mem c present)
    simp [splitAt, here, later]

theorem not_sep_of_mem_splitAt {isSep : Char → Bool} {cs part : List Char}
    (found : part ∈ splitAt isSep cs) : ∀ c ∈ part, isSep c = false := by
  induction cs generalizing part with
  | nil =>
    simp only [splitAt, List.mem_singleton] at found
    simp [found]
  | cons c cs ih =>
    by_cases here : isSep c
    · simp only [splitAt, here, if_true, List.mem_cons] at found
      rcases found with rfl | found
      · simp
      · exact ih found
    · rw [splitAt, if_neg here] at found
      have single : ∀ d ∈ [c], isSep d = false := by simpa using here
      cases parts : splitAt isSep cs with
      | nil =>
        rw [parts, List.mem_singleton] at found
        exact found ▸ single
      | cons first rest =>
        rw [parts] at found ih
        rcases List.mem_cons.mp found with rfl | found
        · intro d present
          rcases List.mem_cons.mp present with rfl | present
          · exact single d List.mem_cons_self
          · exact ih List.mem_cons_self d present
        · exact ih (List.mem_cons_of_mem first found)

end Visibility.Text
