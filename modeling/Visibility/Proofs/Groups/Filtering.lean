import Mathlib.Data.List.Basic
import Visibility.Proofs.Groups.Activation

set_option autoImplicit false
set_option relaxedAutoImplicit false

/-!
The filter of tags, for any evaluator of criteria.

A tag is a candidate by what is written in it and by whether there is an instance.  The criteria of the
candidates are evaluated one after the other until one of them fails.  The main statement describes the
whole outcome of the filter: what was evaluated, the error if there is one, and the tags that are left.
-/

namespace Visibility

namespace GroupQuery

/-- Tags that a request does not drop before their criteria are evaluated. -/
structure IsCandidate (query : GroupQuery) (tag : GroupTag) : Prop where
  concerns : tag.concerns = query.operation.name ∨ tag.concerns = wildcard
  directs : query.direction = .denormalization ∧ query.policy = .asymmetric ∨
    tag.mode = query.direction.name ∨ tag.mode = wildcard
  /-- Without an instance, criteria that name a part of it are not evaluated. -/
  answerable : query.instance_ = none → ∀ criteria ∈ tag.criteria,
    ¬ "object.".toList <:+: criteria.toList

/-- Whether a tag has no criteria or its criteria come out true. -/
def Grants (query : GroupQuery) (evaluator : CriteriaEvaluator) (tag : GroupTag) : Prop :=
  ∀ criteria ∈ tag.criteria, (evaluator criteria query.environment).result = .ok true

def asked (tags : List GroupTag) : List String :=
  tags.filterMap (·.criteria)

def consultationsFor (query : GroupQuery) (evaluator : CriteriaEvaluator) (criteria : List String) :
    List Consultation :=
  criteria.flatMap fun text => (evaluator text query.environment).consultations

variable {query : GroupQuery} {evaluator : CriteriaEvaluator} {tag : GroupTag}
  {others : ActiveGroups}

theorem lacksInstance_eq_false_iff : query.lacksInstance tag = false ↔
    (query.instance_ = none → ∀ criteria ∈ tag.criteria,
      ¬ "object.".toList <:+: criteria.toList) := by
  unfold lacksInstance GroupTag.needsInstance
  cases query.instance_ with
  | some value => simp
  | none =>
    cases tag.criteria with
    | none => simp
    | some criteria =>
      rw [Option.isNone_none, Bool.true_and, ← Bool.not_eq_true, Text.hasPart_iff]
      simp

theorem isCandidate_iff : query.IsCandidate tag ↔
    tag.fits query.operation query.direction query.policy = true ∧
      query.lacksInstance tag = false := by
  -- the two policies and the two directions say when the mode matters
  have directs : (query.direction = .normalization ∨ query.policy = .symmetric →
      tag.mode = query.direction.name ∨ tag.mode = wildcard) ↔
      (query.direction = .denormalization ∧ query.policy = .asymmetric ∨
        tag.mode = query.direction.name ∨ tag.mode = wildcard) := by
    cases query.direction <;> cases query.policy <;> simp
  rw [lacksInstance_eq_false_iff, GroupTag.fits, decide_eq_true_eq, directs]
  constructor
  · rintro ⟨concerns, mode, answerable⟩
    exact ⟨⟨concerns, mode⟩, answerable⟩
  · rintro ⟨⟨concerns, mode⟩, answerable⟩
    exact ⟨concerns, mode, answerable⟩

instance (query : GroupQuery) (tag : GroupTag) : Decidable (query.IsCandidate tag) :=
  decidable_of_iff _ isCandidate_iff.symm

instance (query : GroupQuery) (evaluator : CriteriaEvaluator) (tag : GroupTag) :
    Decidable (query.Grants evaluator tag) :=
  decidable_of_iff
    (∀ criteria ∈ tag.criteria,
      (evaluator criteria query.environment).result.toOption = some true) (by
    simp only [Grants, Except.toOption_eq_some_iff])

def candidates (query : GroupQuery) (table : Table) : List GroupTag :=
  (table.allGroups.toList.map (GroupTag.parse table.type)).filter query.IsCandidate

theorem consider_of_not_isCandidate (dropped : ¬ query.IsCandidate tag) :
    query.consider evaluator tag others = others := by
  rw [isCandidate_iff, not_and, Bool.not_eq_false] at dropped
  unfold consider
  split
  · next fits =>
    have lacks := dropped fits
    cases given : tag.criteria with
    | none => simp [lacksInstance, GroupTag.needsInstance, given] at lacks
    | some criteria => exact if_pos lacks
  · rfl

theorem consider_of_no_criteria (candidate : query.IsCandidate tag)
    (given : tag.criteria = none) :
    query.consider evaluator tag others =
      { others with result := others.result.map (tag.raw :: ·) } := by
  unfold consider
  rw [if_pos (isCandidate_iff.mp candidate).1, given]

theorem consider_of_criteria {criteria : String} (candidate : query.IsCandidate tag)
    (given : tag.criteria = some criteria) :
    query.consider evaluator tag others =
      match (evaluator criteria query.environment).result with
      | .error source =>
        ⟨.error ⟨criteria, source⟩, [criteria],
          (evaluator criteria query.environment).consultations⟩
      | .ok passed =>
        { result := if passed then others.result.map (tag.raw :: ·) else others.result
          criteria := criteria :: others.criteria
          consultations :=
          (evaluator criteria query.environment).consultations ++ others.consultations } := by
  obtain ⟨fits, answerable⟩ := isCandidate_iff.mp candidate
  have asks : ¬ query.lacksInstance tag = true := by
    rw [answerable]
    exact Bool.false_ne_true
  unfold consider
  rw [if_pos fits, given]
  exact if_neg asks

def ComesOut (query : GroupQuery) (evaluator : CriteriaEvaluator) (criteria : String) : Prop :=
  ∃ passed, (evaluator criteria query.environment).result = .ok passed

/-- What the filter makes of its candidates. -/
inductive Filters (query : GroupQuery) (evaluator : CriteriaEvaluator) (tags : List GroupTag)
    (outcome : ActiveGroups) : Prop where
  /-- All criteria come out; the tags that are left are those whose criteria are true. -/
  | answered (came : ∀ criteria ∈ asked tags, query.ComesOut evaluator criteria)
      (evaluated : outcome.criteria = asked tags)
      (left : outcome.result = .ok ((tags.filter (query.Grants evaluator)).map (·.raw)))
      (consults : outcome.consultations = query.consultationsFor evaluator outcome.criteria)
  /-- Some criteria are the first to fail, and the last to be evaluated. -/
  | failed (before : List String) (criteria : String) (after : List String)
      (source : ExpressionError)
      (split : asked tags = before ++ criteria :: after)
      (came : ∀ earlier ∈ before, query.ComesOut evaluator earlier)
      (failure : (evaluator criteria query.environment).result = .error source)
      (evaluated : outcome.criteria = before ++ [criteria])
      (error : outcome.result = .error ⟨criteria, source⟩)
      (consults : outcome.consultations = query.consultationsFor evaluator outcome.criteria)

section Filters

variable {tags : List GroupTag} {raw : String}

theorem Filters.take (filters : query.Filters evaluator tags others)
    (given : tag.criteria = none) :
    query.Filters evaluator (tag :: tags)
      { others with result := others.result.map (tag.raw :: ·) } := by
  have same : asked (tag :: tags) = asked tags := List.filterMap_cons_none given
  have grants : query.Grants evaluator tag := by
    intro criteria present
    rw [given] at present
    contradiction
  cases filters with
  | answered came evaluated left consults =>
    refine .answered (same ▸ came) (same ▸ evaluated) ?_ consults
    rw [left, List.filter_cons, if_pos (decide_eq_true grants)]
    rfl
  | failed before criteria after source split came failure evaluated error consults =>
    refine .failed before criteria after source (same ▸ split) came failure evaluated ?_ consults
    rw [error]
    rfl

theorem Filters.pass {criteria : String} {passed : Bool}
    (filters : query.Filters evaluator tags others) (given : tag.criteria = some criteria)
    (came : (evaluator criteria query.environment).result = .ok passed) :
    query.Filters evaluator (tag :: tags)
      { result := if passed then others.result.map (tag.raw :: ·) else others.result
        criteria := criteria :: others.criteria
        consultations :=
          (evaluator criteria query.environment).consultations ++ others.consultations } := by
  have first : asked (tag :: tags) = criteria :: asked tags := List.filterMap_cons_some given
  have grants : query.Grants evaluator tag ↔ passed = true := by
    simp [Grants, given, came]
  have joined : (evaluator criteria query.environment).consultations ++
      query.consultationsFor evaluator others.criteria =
      query.consultationsFor evaluator (criteria :: others.criteria) := rfl
  cases filters with
  | answered cameLater evaluated left consults =>
    refine .answered ?_ ?_ ?_ ?_
    · rw [first]
      exact List.forall_mem_cons.mpr ⟨⟨passed, came⟩, cameLater⟩
    · rw [first, evaluated]
    · cases passed with
      | true =>
        rw [List.filter_cons, if_pos (decide_eq_true (grants.mpr rfl)), left]
        rfl
      | false =>
        have refused : ¬ decide (query.Grants evaluator tag) = true := by simp [grants]
        rw [List.filter_cons, if_neg refused]
        exact left
    · rw [consults, joined]
  | failed before failing after source split cameBefore failure evaluated error consults =>
    refine .failed (criteria :: before) failing after source ?_ ?_ failure ?_ ?_ ?_
    · rw [first, split, List.cons_append]
    · exact List.forall_mem_cons.mpr ⟨⟨passed, came⟩, cameBefore⟩
    · rw [evaluated, List.cons_append]
    · rw [error]
      cases passed <;> rfl
    · rw [consults, joined]

theorem Filters.stop {criteria : String} {source : ExpressionError}
    (given : tag.criteria = some criteria)
    (failure : (evaluator criteria query.environment).result = .error source) :
    query.Filters evaluator (tag :: tags)
      ⟨.error ⟨criteria, source⟩, [criteria],
        (evaluator criteria query.environment).consultations⟩ := by
  have first : asked (tag :: tags) = criteria :: asked tags := List.filterMap_cons_some given
  refine .failed [] criteria (asked tags) source first ?_ failure rfl rfl ?_
  · intro earlier absent
    contradiction
  · exact (List.append_nil _).symm

/-- What considering one more tag gives. -/
theorem Filters.consider (filters : query.Filters evaluator tags others)
    (candidate : query.IsCandidate tag) :
    query.Filters evaluator (tag :: tags) (query.consider evaluator tag others) := by
  cases given : tag.criteria with
  | none =>
    rw [consider_of_no_criteria candidate given]
    exact filters.take given
  | some criteria =>
    rw [consider_of_criteria candidate given]
    cases came : (evaluator criteria query.environment).result with
    | error source => exact .stop given came
    | ok passed => exact filters.pass given came

theorem filters_activeAmong (query : GroupQuery) (evaluator : CriteriaEvaluator) (type : String)
    (written : List String) :
    query.Filters evaluator ((written.map (GroupTag.parse type)).filter query.IsCandidate)
      (query.activeAmong evaluator type written) := by
  induction written with
  | nil =>
    refine .answered ?_ rfl rfl rfl
    intro criteria absent
    contradiction
  | cons raw rest ih =>
    rw [List.map_cons, List.filter_cons, activeAmong]
    by_cases candidate : query.IsCandidate (GroupTag.parse type raw)
    · rw [if_pos (decide_eq_true candidate)]
      exact ih.consider candidate
    · rw [if_neg (by simpa using candidate), consider_of_not_isCandidate candidate]
      exact ih

theorem Filters.exists_error_iff {outcome : ActiveGroups}
    (filters : query.Filters evaluator tags outcome) :
    (∃ error, outcome.result = .error error) ↔
      ∃ criteria ∈ asked tags, ∃ source,
        (evaluator criteria query.environment).result = .error source := by
  cases filters with
  | answered came evaluated left consults =>
    constructor
    · rintro ⟨error, failed⟩
      rw [left] at failed
      contradiction
    · rintro ⟨criteria, present, source, failure⟩
      obtain ⟨passed, out⟩ := came criteria present
      rw [out] at failure
      contradiction
  | failed before criteria after source split came failure evaluated error consults =>
    have present : criteria ∈ asked tags := by
      rw [split]
      exact List.mem_append_right before List.mem_cons_self
    exact ⟨fun _ => ⟨criteria, present, source, failure⟩, fun _ => ⟨_, error⟩⟩

theorem Filters.eq_of_ok {outcome : ActiveGroups} {active : List String}
    (filters : query.Filters evaluator tags outcome) (came : outcome.result = .ok active) :
    active = (tags.filter (query.Grants evaluator)).map (·.raw) := by
  cases filters with
  | answered cameAll evaluated left consults =>
    rw [left] at came
    exact (Except.ok.inj came).symm
  | failed before criteria after source split cameBefore failure evaluated error consults =>
    rw [error] at came
    contradiction

end Filters

section Policies

def under (query : GroupQuery) (policy : DirectionPolicy) : GroupQuery :=
  { query with policy := policy }

theorem isCandidate_under_iff (normalizing : query.direction = .normalization)
    (policy : DirectionPolicy) : (query.under policy).IsCandidate tag ↔ query.IsCandidate tag := by
  have other : query.direction ≠ .denormalization := by
    rw [normalizing]
    exact nofun
  constructor
  · rintro ⟨concerns, ⟨opposite, -⟩ | mode, answerable⟩
    · exact absurd opposite other
    · exact ⟨concerns, .inr mode, answerable⟩
  · rintro ⟨concerns, ⟨opposite, -⟩ | mode, answerable⟩
    · exact absurd opposite other
    · exact ⟨concerns, .inr mode, answerable⟩

theorem IsCandidate.asymmetric (candidate : (query.under .symmetric).IsCandidate tag) :
    (query.under .asymmetric).IsCandidate tag := by
  obtain ⟨concerns, ⟨-, contrary⟩ | mode, answerable⟩ := candidate
  · contradiction
  · exact ⟨concerns, .inr mode, answerable⟩

theorem active_under (normalizing : query.direction = .normalization) (policy : DirectionPolicy)
    (evaluator : CriteriaEvaluator) (table : Table) :
    (query.under policy).active evaluator table = query.active evaluator table := by
  have considers (tag : GroupTag) (others : ActiveGroups) :
      (query.under policy).consider evaluator tag others =
        query.consider evaluator tag others := by
    by_cases candidate : query.IsCandidate tag
    · have candidateUnder := (isCandidate_under_iff normalizing policy).mpr candidate
      cases given : tag.criteria with
      | none =>
        rw [consider_of_no_criteria candidate given, consider_of_no_criteria candidateUnder given]
      | some criteria =>
        rw [consider_of_criteria candidate given, consider_of_criteria candidateUnder given]
        rfl
    · have dropped : ¬ (query.under policy).IsCandidate tag := by
        rw [isCandidate_under_iff normalizing policy]
        exact candidate
      rw [consider_of_not_isCandidate candidate, consider_of_not_isCandidate dropped]
  unfold active
  induction table.allGroups.toList with
  | nil => rfl
  | cons raw rest ih => rw [activeAmong, activeAmong, ih, considers]

theorem sublist_under {table : Table} {fewer more : List String}
    (symmetric : ((query.under .symmetric).active evaluator table).result = .ok fewer)
    (asymmetric : ((query.under .asymmetric).active evaluator table).result = .ok more) :
    fewer.Sublist more := by
  have filtersFewer := filters_activeAmong (query.under .symmetric) evaluator table.type
    table.allGroups.toList
  have filtersMore := filters_activeAmong (query.under .asymmetric) evaluator table.type
    table.allGroups.toList
  rw [filtersFewer.eq_of_ok symmetric, filtersMore.eq_of_ok asymmetric]
  apply List.Sublist.map
  have grants : (fun tag => decide ((query.under .symmetric).Grants evaluator tag)) =
      fun tag => decide ((query.under .asymmetric).Grants evaluator tag) := rfl
  rw [grants]
  apply List.Sublist.filter
  apply List.monotone_filter_right
  intro tag candidate
  exact decide_eq_true (of_decide_eq_true candidate).asymmetric

end Policies

/-- The filter of a table: its candidates decide what is evaluated, what fails, and what is left, and
the policy takes tags away only while denormalizing. -/
theorem filters_active (query : GroupQuery) (evaluator : CriteriaEvaluator) (table : Table) :
    query.Filters evaluator (query.candidates table) (query.active evaluator table) ∧
      ((∃ error, (query.active evaluator table).result = .error error) ↔
        ∃ criteria ∈ asked (query.candidates table), ∃ source,
          (evaluator criteria query.environment).result = .error source) ∧
      (∀ active, (query.active evaluator table).result = .ok active →
        active.Sublist table.allGroups.toList) ∧
      (query.direction = .normalization →
        (query.under .symmetric).active evaluator table =
          (query.under .asymmetric).active evaluator table) ∧
      (query.direction = .denormalization → ∀ fewer more,
        ((query.under .symmetric).active evaluator table).result = .ok fewer →
        ((query.under .asymmetric).active evaluator table).result = .ok more →
          fewer.Sublist more) := by
  have filters : query.Filters evaluator (query.candidates table) (query.active evaluator table) :=
    filters_activeAmong query evaluator table.type table.allGroups.toList
  refine ⟨filters, filters.exists_error_iff, ?_, ?_, ?_⟩
  · intro active came
    rw [filters.eq_of_ok came]
    have written : (table.allGroups.toList.map (GroupTag.parse table.type)).map (·.raw) =
        table.allGroups.toList := by
      simp [Function.comp_def, GroupTag.raw_parse]
    have kept := ((List.filter_sublist (p := query.Grants evaluator)).trans
      (List.filter_sublist (p := query.IsCandidate)
        (l := table.allGroups.toList.map (GroupTag.parse table.type)))).map GroupTag.raw
    rwa [written] at kept
  · intro normalizing
    rw [active_under normalizing, active_under normalizing]
  · intro _ fewer more symmetric asymmetric
    exact sublist_under symmetric asymmetric

def writableTable : Table :=
  { type := "Book"
    allGroups := ⟨["Book:item.normalization.get", "Book:item.denormalization.put:is_granted('STAFF')",
      "Book:collection.any.list"], by decide⟩ }

def putQuery : GroupQuery :=
  { operation := .item, direction := .denormalization
    caller := RoleHolder.toCaller { roles := ["STAFF"] } }

theorem filters_active_writableTable : putQuery.direction = .denormalization ∧
    ∃ fewer more,
      ((putQuery.under .symmetric).active evaluate writableTable).result = .ok fewer ∧
      ((putQuery.under .asymmetric).active evaluate writableTable).result = .ok more ∧
      fewer = ["Book:item.denormalization.put:is_granted('STAFF')"] ∧ fewer ≠ more ∧
      fewer.Sublist more := by
  let put := "Book:item.denormalization.put:is_granted('STAFF')"
  have symmetric : ((putQuery.under .symmetric).active evaluate writableTable).result =
      .ok [put] := Except.toOption_eq_some_iff.mp (by decide +kernel)
  have asymmetric : ((putQuery.under .asymmetric).active evaluate writableTable).result =
      .ok ["Book:item.normalization.get", put] := Except.toOption_eq_some_iff.mp (by decide +kernel)
  obtain ⟨-, -, -, -, sublist⟩ := filters_active putQuery evaluate writableTable
  exact ⟨rfl, _, _, symmetric, asymmetric, rfl, by simp,
    sublist rfl _ _ symmetric asymmetric⟩

end GroupQuery

end Visibility
