import Visibility.Proofs.Mapping.Tagging
import Visibility.Proofs.Mapping.Yield

set_option autoImplicit false
set_option relaxedAutoImplicit false

/-!
When the security keys of a level can be applied, and for which markers they define conditions.
-/

namespace Visibility

def Yaml.HasExpression (value : Yaml) : Prop :=
  ∃ text, value.text? = some text ∧ Text.trim text ≠ ""

theorem Scope.exists_expression_iff {scope : Scope} {directive : String} {value : Yaml} :
    (∃ expression, scope.expression directive value = .ok expression) ↔ value.HasExpression := by
  simp only [Scope.expression_eq_ok_iff, Option.map_eq_some_iff]
  constructor
  · rintro ⟨expression, ⟨text, spelled, rfl⟩, filled⟩
    refine ⟨text, spelled, fun blank => ?_⟩
    rw [blank] at filled
    contradiction
  · rintro ⟨text, spelled, filled⟩
    refine ⟨_, ⟨text, spelled, rfl⟩, ?_⟩
    rw [Bool.eq_false_iff, Ne, String.isEmpty_iff]
    exact filled

/-- Trees whose keys on the first level are untagged texts. -/
def Tree.Named (tree : Tree) : Prop :=
  ∀ pair ∈ tree, ∃ name, pair.1 = .string name

theorem Tree.RegularKeys.named {tree : Tree} (regular : tree.RegularKeys) : tree.Named := by
  rintro ⟨key, value⟩ present
  obtain ⟨name, spelled, _⟩ := regular.spelled key value present
  exact ⟨name, spelled⟩

theorem Tree.Named.eq_of_text {tree : Tree} (named : tree.Named) {pair : Yaml × Yaml} {name : String}
    (present : pair ∈ tree) (spelled : pair.1.text? = some name) : pair = (.string name, pair.2) := by
  obtain ⟨key, value⟩ := pair
  obtain ⟨other, rfl⟩ : ∃ other, key = .string other := named _ present
  cases spelled
  rfl

namespace Walk

variable {scope : Scope} {parent : Option FieldRef} {conditions after : Conditions} {tree : Tree}
  {own : List Step} {inherited : Option String}

theorem exists_security_iff {value : Yaml} :
    (∃ outcome, security scope parent value conditions = .ok outcome) ↔
      parent.isSome ∧ value.HasExpression := by
  have reads : value.HasExpression ↔
      ∃ expression, scope.expression Segment.securityKey value = .ok expression :=
    Scope.exists_expression_iff.symm
  simp only [security_eq_ok_iff, reads]
  constructor
  · rintro ⟨outcome, expression, ref, given, rfl, -⟩
    exact ⟨rfl, expression, given⟩
  · rintro ⟨around, expression, given⟩
    obtain ⟨ref, rfl⟩ := Option.isSome_iff_exists.mp around
    exact ⟨_, expression, ref, given, rfl, rfl⟩

theorem exists_ownSecurity_cons_iff {name : String} {value : Yaml} {rest : Tree} :
    (∃ outcome, ownSecurity scope parent conditions ((.string name, value) :: rest) = .ok outcome) ↔
      if name = Segment.securityKey then
        ∃ first, security scope parent value conditions = .ok first ∧
          ∃ more, ownSecurity scope parent first.1 rest = .ok more
      else ∃ outcome, ownSecurity scope parent conditions rest = .ok outcome := by
  simp only [ownSecurity_cons_eq_ok_iff]
  split
  · next here =>
    constructor
    · rintro ⟨outcome, _, ⟨⟩, walked⟩
      rw [if_pos here] at walked
      obtain ⟨first, more, applied, walkedRest, -⟩ := walked
      exact ⟨first, applied, more, walkedRest⟩
    · rintro ⟨first, applied, more, walkedRest⟩
      exact ⟨_, name, rfl, by rw [if_pos here]; exact ⟨first, more, applied, walkedRest, rfl⟩⟩
  · next other =>
    constructor
    · rintro ⟨outcome, _, ⟨⟩, walked⟩
      exact ⟨outcome, by rwa [if_neg other] at walked⟩
    · rintro ⟨outcome, walked⟩
      exact ⟨outcome, name, rfl, by rwa [if_neg other]⟩

theorem exists_ownSecurity_iff (named : tree.Named) :
    (∃ outcome, ownSecurity scope parent conditions tree = .ok outcome) ↔
      ∀ value, (.string Segment.securityKey, value) ∈ tree →
        parent.isSome ∧ value.HasExpression := by
  induction tree generalizing conditions with
  | nil => simp [ownSecurity]
  | cons pair rest ih =>
    obtain ⟨key, value⟩ := pair
    obtain ⟨⟨name, spelled⟩, namedLater⟩ := List.forall_mem_cons.mp named
    obtain rfl : key = .string name := spelled
    simp only [exists_ownSecurity_cons_iff, ih namedLater, exists_and_right, exists_security_iff,
      List.mem_cons, Prod.mk.injEq, Yaml.string.injEq]
    split
    · next here =>
      constructor
      · rintro ⟨first, later⟩ again (⟨-, rfl⟩ | present)
        · exact first
        · exact later again present
      · intro each
        exact ⟨each value (.inl ⟨here.symm, rfl⟩), fun again present => each again (.inr present)⟩
    · next other =>
      constructor
      · rintro later again (⟨same, -⟩ | present)
        · exact absurd same.symm other
        · exact later again present
      · intro each again present
        exact each again (.inr present)

theorem exists_namedSecurity_cons_iff {name : String} {value : Yaml} {rest : Tree} :
    (∃ after, namedSecurity scope conditions ((.string name, value) :: rest) = .ok after) ↔
      if Segment.isHoisted name ∧ name ≠ Segment.securityKey then
        ∃ expression, scope.expression name value = .ok expression ∧ ∃ after,
          namedSecurity scope (conditions.define (Segment.markerOf name) expression) rest = .ok after
      else ∃ after, namedSecurity scope conditions rest = .ok after := by
  simp only [namedSecurity_cons_eq_ok_iff]
  split
  · next here =>
    constructor
    · rintro ⟨after, _, ⟨⟩, walked⟩
      rw [if_pos here] at walked
      obtain ⟨expression, given, walkedRest⟩ := walked
      exact ⟨expression, given, after, walkedRest⟩
    · rintro ⟨expression, given, after, walkedRest⟩
      exact ⟨after, name, rfl, by rw [if_pos here]; exact ⟨expression, given, walkedRest⟩⟩
  · next other =>
    constructor
    · rintro ⟨after, _, ⟨⟩, walked⟩
      exact ⟨after, by rwa [if_neg other] at walked⟩
    · rintro ⟨after, walked⟩
      exact ⟨after, name, rfl, by rwa [if_neg other]⟩

theorem exists_namedSecurity_iff (named : tree.Named) :
    (∃ after, namedSecurity scope conditions tree = .ok after) ↔
      ∀ name value, (.string name, value) ∈ tree → Segment.isHoisted name = true →
        name ≠ Segment.securityKey → value.HasExpression := by
  induction tree generalizing conditions with
  | nil => simp [namedSecurity]
  | cons pair rest ih =>
    obtain ⟨key, value⟩ := pair
    obtain ⟨⟨name, spelled⟩, namedLater⟩ := List.forall_mem_cons.mp named
    obtain rfl : key = .string name := spelled
    simp only [exists_namedSecurity_cons_iff, ih namedLater, exists_and_right,
      Scope.exists_expression_iff, List.mem_cons, Prod.mk.injEq, Yaml.string.injEq]
    split
    · next here =>
      constructor
      · rintro ⟨first, later⟩ other again (⟨rfl, rfl⟩ | present) hoisted apart
        · exact first
        · exact later other again present hoisted apart
      · intro each
        exact ⟨each name value (.inl ⟨rfl, rfl⟩) here.1 here.2,
          fun other again present => each other again (.inr present)⟩
    · next free =>
      constructor
      · rintro later other again (⟨rfl, rfl⟩ | present) hoisted apart
        · exact absurd ⟨hoisted, apart⟩ free
        · exact later other again present hoisted apart
      · intro each other again present
        exact each other again (.inr present)

/-- The security keys of a level can be applied where all of them hold expressions and `_security` has
an attribute around it. -/
theorem exists_hoisted_iff (named : tree.Named) :
    (∃ outcome, hoisted scope parent inherited tree = .ok outcome) ↔
      ∀ name value, (.string name, value) ∈ tree → Segment.isHoisted name = true →
        value.HasExpression ∧ (name = Segment.securityKey → parent.isSome) := by
  constructor
  · rintro ⟨⟨after, own⟩, walked⟩ name value present hoisted
    obtain ⟨started, applied, defined⟩ := hoisted_eq_ok_iff.mp walked
    have guarded := (exists_ownSecurity_iff named).mp ⟨_, applied⟩
    have marked := (exists_namedSecurity_iff named).mp ⟨_, defined⟩
    by_cases own : name = Segment.securityKey
    · subst own
      obtain ⟨around, filled⟩ := guarded value present
      exact ⟨filled, fun _ => around⟩
    · exact ⟨marked name value present hoisted own, fun same => absurd same own⟩
  · intro each
    have guarded : ∀ value, (.string Segment.securityKey, value) ∈ tree →
        parent.isSome ∧ value.HasExpression := by
      intro value present
      obtain ⟨filled, around⟩ := each _ value present (by decide +kernel)
      exact ⟨around rfl, filled⟩
    obtain ⟨⟨started, own⟩, applied⟩ :
        ∃ outcome, ownSecurity scope parent { inherited := inherited } tree = .ok outcome :=
      (exists_ownSecurity_iff named).mpr guarded
    obtain ⟨after, defined⟩ : ∃ after, namedSecurity scope started tree = .ok after :=
      (exists_namedSecurity_iff named).mpr
        fun name value present hoisted _ => (each name value present hoisted).1
    exact ⟨_, hoisted_eq_ok_iff.mpr ⟨started, applied, defined⟩⟩

theorem joined_toList (condition : Option String) : joined condition.toList = condition := by
  cases condition <;> rfl

theorem isSome_expressionAt?_iff (regular : tree.RegularKeys)
    (walked : hoisted scope parent inherited tree = .ok (after, own)) {name : String}
    (directive : Segment.isHoisted name = true) :
    (tree.expressionAt? name).isSome ↔ ∃ value, (.string name, value) ∈ tree := by
  have filled := (exists_hoisted_iff regular.named).mp ⟨_, walked⟩
  cases present : tree.valueAt? name with
  | none =>
    have absent : tree.expressionAt? name = none := by rw [Tree.expressionAt?, present]; rfl
    rw [absent]
    refine iff_of_false Bool.false_ne_true ?_
    rintro ⟨value, pair⟩
    exact Tree.valueAt?_eq_none_iff.mp present _ pair rfl
  | some value =>
    obtain ⟨pair, first, rfl⟩ := Option.map_eq_some_iff.mp present
    have here : pair ∈ tree := List.mem_of_find?_eq_some first
    have spelled : pair.1.text? = some name := by simpa using List.find?_some first
    rw [regular.named.eq_of_text here spelled] at here
    obtain ⟨⟨text, read, -⟩, -⟩ := filled name pair.2 here directive
    have found : tree.expressionAt? name = some (Text.trim text) := by
      rw [Tree.expressionAt?, present, Option.bind_some, read]
      rfl
    rw [found]
    exact iff_of_true rfl ⟨pair.2, here⟩

theorem exists_ofMarker_iff (regular : tree.RegularKeys)
    (walked : hoisted scope parent inherited tree = .ok (after, own)) {name : String}
    {marker? : Option String} {fields : List String}
    (spelled : Segment.Spells name marker? fields) :
    (∃ condition, after.ofMarker scope marker? = .ok condition) ↔
      ∀ marker ∈ marker?, ∃ value, (.string (Segment.securityKey ++ marker), value) ∈ tree := by
  have walkedGuards : hoisted scope parent (joined inherited.toList) tree = .ok (after, own) := by
    rw [joined_toList]
    exact walked
  obtain ⟨express, -⟩ := hoisted_eq_ok regular.distinct walkedGuards
  simp only [express.ofMarker_eq_ok_iff spelled]
  cases marker? with
  | none => simp [Tree.guardsAt?]
  | some marker =>
    have inPath : marker ∈ Segment.path name := by
      rw [spelled.path]
      exact List.mem_append_left _ (by simp)
    obtain ⟨directive, -⟩ :=
      (spelled.marked marker rfl).isHoisted (Segment.not_dot_of_mem_path inPath)
    have defined := isSome_expressionAt?_iff regular walked directive
    rw [Option.isSome_iff_exists] at defined
    simp only [Option.mem_def, Option.some.injEq, forall_eq', ← defined]
    constructor
    · rintro ⟨_, above, guarded, rfl⟩
      obtain ⟨expression, found, -⟩ := Option.map_eq_some_iff.mp guarded
      exact ⟨expression, found⟩
    · rintro ⟨expression, found⟩
      exact ⟨_, _, by rw [Tree.guardsAt?, found]; rfl, rfl⟩

end Walk

end Visibility
