import Visibility.Proofs.Expression.Reading
import Visibility.Proofs.Groups.Activation
import Visibility.Proofs.Mapping.Guards

set_option autoImplicit false
set_option relaxedAutoImplicit false

/-!
Requests without an instance.

Criteria that read the instance are told by their text alone, and only where the dot stands right after
the name.  What the text does not tell is evaluated, with no value for the instance.
-/

namespace Visibility

/-- Whether the name of the instance and the dot after it stand apart in a text, with only blanks and
closing parentheses between them. -/
def SpellsApart (expression : String) : Prop :=
  ∃ before gap after, expression.toList = before ++ "object".toList ++ gap ++ '.' :: after ∧
    gap ≠ [] ∧ ∀ c ∈ gap, Token.isBlank c ∨ c = ')'

theorem Expr.ReadsObject.readsInstance_or_spellsApart {text : String} {expr : Expr}
    (reads : expr.ReadsObject) (parsed : parse? text = some expr) :
    ReadsInstance text ∨ SpellsApart text := by
  obtain ⟨before, gap, after, spelled, allowed⟩ := reads.exists_gap parsed
  cases gap with
  | nil =>
    left
    rw [ReadsInstance, Text.hasPart_iff]
    exact ⟨before, after, by simp [spelled]⟩
  | cons c gap => exact .inr ⟨before, c :: gap, after, spelled,
      List.cons_ne_nil c gap, allowed⟩

namespace GroupQuery

variable {query : GroupQuery} {evaluator : CriteriaEvaluator} {table : Table} {active : List String}

/-- Without an instance, active tags whose criteria read a member of it spell it apart, and no criteria
of an active tag have the dot right after the name. -/
theorem spellsApart_of_mem_active (alone : query.instance_ = none)
    (answered : (query.active evaluator table).result = .ok active) {raw criteria : String}
    (on : raw ∈ active) (given : (GroupTag.parse table.type raw).criteria = some criteria) :
    ¬ ReadsInstance criteria ∧
      ∀ expr, Expr.parse? criteria = some expr → expr.ReadsObject → SpellsApart criteria := by
  obtain ⟨_, _, passes⟩ := (mem_activeAmong_iff answered raw).mp on
  have told : ¬ ReadsInstance criteria := by
    have has := (passes criteria given).1
    simpa [lacksInstance, alone, GroupTag.needsInstance, given, ReadsInstance] using has
  exact ⟨told, fun expr parsed reads =>
    (reads.readsInstance_or_spellsApart parsed).resolve_left told⟩

def blankTable : Table :=
  (Table.empty "Book").addCatchAll "Book:item.normalization.get:object .owner == null"

def itemQuery : GroupQuery :=
  { operation := .item, direction := .normalization, caller := RoleHolder.anonymous.toCaller }

theorem active_blankTable : (itemQuery.active evaluate blankTable).result =
    .ok ["Book:item.normalization.get:object .owner == null"] :=
  Except.toOption_eq_some_iff.mp (by decide +kernel)

theorem criteria_blankTable :
    (GroupTag.parse "Book" "Book:item.normalization.get:object .owner == null").criteria =
      some "object .owner == null" := by decide +kernel

theorem parse?_blank : Expr.parse? "object .owner == null" =
    some (.binary (.compare .eq) (.member (.var "object") "owner") (.literal .null)) :=
  have scanned : Token.scan "object .owner == null".toList =
      some [.name "object", .dot, .name "owner", .comparison .eq, .null] := by decide +kernel
  Expr.parse?_of_scan scanned rfl

theorem spellsApart_of_mem_active_blankTable :
    itemQuery.instance_ = none ∧ SpellsApart "object .owner == null" :=
  ⟨rfl, (spellsApart_of_mem_active rfl active_blankTable List.mem_cons_self
    criteria_blankTable).2 _ parse?_blank (.left .member)⟩

/-- A blank before the dot suffices for criteria to be evaluated, and to come out true, with no
instance to read. -/
theorem not_forall_not_readsObject :
    ¬ ∀ (query : GroupQuery) (table : Table) (active : List String) (raw criteria : String)
        (expr : Expr), query.instance_ = none → (query.active evaluate table).result = .ok active →
      raw ∈ active → (GroupTag.parse table.type raw).criteria = some criteria →
      Expr.parse? criteria = some expr → ¬ expr.ReadsObject := by
  intro none_
  exact none_ itemQuery blankTable _ _ _ _ rfl active_blankTable List.mem_cons_self
    criteria_blankTable parse?_blank (.left .member)

end GroupQuery

end Visibility
