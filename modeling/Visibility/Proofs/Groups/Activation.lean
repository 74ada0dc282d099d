import Visibility.Groups
import Visibility.Proofs.Mapping.Walking
import Visibility.Proofs.Text.Split

set_option autoImplicit false
set_option relaxedAutoImplicit false

/-!
Written tags taken apart, and which of them a request activates.
-/

namespace Visibility

namespace Tag

variable {tag other : Tag}

def afterType (tag : Tag) : String :=
  match tag.condition with
  | some condition => tag.group ++ ":" ++ condition
  | none => tag.group

theorem text_eq (tag : Tag) : tag.text = tag.type ++ ":" ++ tag.afterType := by
  unfold text afterType
  cases tag.condition with
  | none => rfl
  | some condition => simp only [String.append_assoc]

theorem type_eq_of_text_eq (plain : ':' ∉ tag.type.toList) (plainOther : ':' ∉ other.type.toList)
    (same : tag.text = other.text) : tag.type = other.type := by
  have colon : ":" = String.singleton ':' := rfl
  rw [text_eq, text_eq, colon] at same
  have cut := Text.cutFirst?_append plain tag.afterType
  rw [same, Text.cutFirst?_append plainOther, Option.some.injEq, Prod.mk.injEq] at cut
  exact cut.1.symm

end Tag

namespace GroupTag

theorem raw_parse (type raw : String) : (parse type raw).raw = raw := by
  unfold parse
  split
  rfl

theorem parse_text {tag : Tag} (plain : ':' ∉ tag.group.toList) :
    parse tag.type tag.text =
      { raw := tag.text
        group := tag.group
        concerns := (parts tag.group).1
        mode := (parts tag.group).2.1
        verb := (parts tag.group).2.2
        criteria := tag.condition } := by
  have rest : withoutType tag.type tag.text = tag.afterType := by
    rw [withoutType, Tag.text_eq, Text.cutLead?_append]
  have colon : ":" = String.singleton ':' := rfl
  unfold parse
  rw [rest, Tag.afterType]
  cases tag.condition with
  | none => rw [colon, Text.cutFirst?_of_not_mem plain]
  | some condition => rw [colon, Text.cutFirst?_append plain]

end GroupTag

namespace GroupQuery

def Concerns (query : GroupQuery) (group : String) : Prop :=
  ((GroupTag.parts group).1 = query.operation.name ∨ (GroupTag.parts group).1 = wildcard) ∧
    (query.direction = .normalization ∨ query.policy = .symmetric →
      (GroupTag.parts group).2.1 = query.direction.name ∨ (GroupTag.parts group).2.1 = wildcard)

instance (query : GroupQuery) (group : String) : Decidable (query.Concerns group) :=
  inferInstanceAs (Decidable (_ ∧ _))

/-- Whether the criteria of a tag come out true, and can be asked without an instance if there is
none. -/
def Passes (query : GroupQuery) (evaluator : CriteriaEvaluator) (tag : GroupTag) : Prop :=
  ∀ criteria, tag.criteria = some criteria →
    query.lacksInstance tag = false ∧
      (evaluator criteria query.environment).result = .ok true

def Activates (query : GroupQuery) (evaluator : CriteriaEvaluator) (tag : GroupTag) : Prop :=
  tag.fits query.operation query.direction query.policy = true ∧ query.Passes evaluator tag

section Active

variable {query : GroupQuery} {evaluator : CriteriaEvaluator} {type : String}

theorem exists_of_consider {tag : GroupTag} {others : ActiveGroups} {active : List String}
    (answered : (query.consider evaluator tag others).result = .ok active) :
    ∃ rest, others.result = .ok rest ∧
      (query.Activates evaluator tag ∧ active = tag.raw :: rest ∨
        ¬ query.Activates evaluator tag ∧ active = rest) := by
  unfold consider at answered
  by_cases fits : tag.fits query.operation query.direction query.policy
  · rw [if_pos fits] at answered
    cases asked : tag.criteria with
    | none =>
      rw [asked] at answered
      obtain ⟨rest, came, rfl⟩ := Except.map_eq_ok_iff.mp answered
      have activates : query.Activates evaluator tag :=
        ⟨fits, fun criteria given => by rw [asked] at given; contradiction⟩
      exact ⟨rest, came, .inl ⟨activates, rfl⟩⟩
    | some criteria =>
      simp only [asked] at answered
      cases lacks : query.lacksInstance tag with
      | true =>
        rw [lacks, if_pos rfl] at answered
        refine ⟨active, answered, .inr ⟨fun activates => ?_, rfl⟩⟩
        have has := (activates.2 criteria asked).1
        rw [lacks] at has
        contradiction
      | false =>
        rw [lacks, if_neg nofun] at answered
        cases came : (evaluator criteria query.environment).result with
        | error error =>
          rw [came] at answered
          contradiction
        | ok passed =>
          rw [came] at answered
          cases passed with
          | true =>
            obtain ⟨rest, cameRest, rfl⟩ := Except.map_eq_ok_iff.mp answered
            have activates : query.Activates evaluator tag := by
              refine ⟨fits, fun other given => ?_⟩
              cases asked.symm.trans given
              exact ⟨lacks, came⟩
            exact ⟨rest, cameRest, .inl ⟨activates, rfl⟩⟩
          | false =>
            refine ⟨active, answered, .inr ⟨fun activates => ?_, rfl⟩⟩
            have held := (activates.2 criteria asked).2
            rw [came] at held
            cases held
  · rw [if_neg fits] at answered
    exact ⟨active, answered, .inr ⟨fun activates => fits activates.1, rfl⟩⟩

theorem mem_activeAmong_iff {candidates active : List String}
    (answered : (query.activeAmong evaluator type candidates).result = .ok active) (raw : String) :
    raw ∈ active ↔ raw ∈ candidates ∧ query.Activates evaluator (GroupTag.parse type raw) := by
  induction candidates generalizing active with
  | nil =>
    cases answered
    simp
  | cons first rest ih =>
    obtain ⟨others, cameRest, ⟨activates, rfl⟩ | ⟨passed, rfl⟩⟩ := exists_of_consider answered
    · rw [List.mem_cons, List.mem_cons, ih cameRest, GroupTag.raw_parse]
      constructor
      · rintro (rfl | ⟨later, given⟩)
        · exact ⟨.inl rfl, activates⟩
        · exact ⟨.inr later, given⟩
      · rintro ⟨rfl | later, given⟩
        · exact .inl rfl
        · exact .inr ⟨later, given⟩
    · rw [List.mem_cons, ih cameRest]
      constructor
      · rintro ⟨later, given⟩
        exact ⟨.inr later, given⟩
      · rintro ⟨rfl | later, given⟩
        · exact absurd given passed
        · exact ⟨later, given⟩

end Active

end GroupQuery

end Visibility
