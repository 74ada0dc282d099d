import Visibility.Proofs.Text.Split
import Visibility.Resolver

set_option autoImplicit false
set_option relaxedAutoImplicit false

/-!
The types that fields lead to are known ones.

A field leads to what one of its candidates names: the candidate itself, or the candidate in the
namespace of the owner.  Only the candidate itself is looked up among the collections, so the main
statement leaves one way to a collection: a short name that the namespace of the owner completes to
it.
-/

namespace Visibility

theorem Text.dropLeads_dropLeads (sep cs : List Char) :
    dropLeads sep (dropLeads sep cs) = dropLeads sep cs := by
  fun_induction dropLeads sep cs with
  | case1 cs => rw [dropLeads]
  | case2 cs s seps rest found shorter ih => exact ih
  | case3 cs s seps rest found longer =>
    rw [dropLeads, found]
    simp only [longer, if_false]
  | case4 cs s seps absent => rw [dropLeads, absent]

namespace Resolver

variable {resolver : Resolver} {owner field candidate type : String}

theorem trimLeads_trimLeads (resolver : Resolver) (name : String) :
    resolver.trimLeads (resolver.trimLeads name) = resolver.trimLeads name := by
  simp only [trimLeads, String.toList_ofList, Text.dropLeads_dropLeads]

theorem isCollection_iff : resolver.isCollection type ↔
    resolver.trimLeads type ∈ resolver.collections := by
  rw [isCollection, List.contains_iff_mem]

/-- The name that a candidate has without what is skipped at its ends. -/
def shortName (resolver : Resolver) (candidate : String) : String :=
  resolver.trimLeads (Text.trim candidate)

/-- A short name that is a known type stands for itself; another one is completed by the namespace of
the owner. -/
inductive Names (resolver : Resolver) (owner short : String) : String → Prop
  | whole (known : resolver.introspector.typeExists short) : Names resolver owner short short
  | qualified {namespace_ last : String} (unknown : ¬ resolver.introspector.typeExists short)
      (cut : Text.cutLast? resolver.separator owner = some (namespace_, last))
      (known : resolver.introspector.typeExists (namespace_ ++ resolver.separator ++ short)) :
      Names resolver owner short (namespace_ ++ resolver.separator ++ short)

theorem known?_eq_some_iff : resolver.known? owner candidate = some type ↔
    resolver.shortName candidate ≠ "" ∧ resolver.shortName candidate ∉ resolver.collections ∧
      resolver.Names owner (resolver.shortName candidate) type := by
  have collects : resolver.isCollection (resolver.shortName candidate) ↔
      resolver.shortName candidate ∈ resolver.collections := by
    rw [isCollection_iff, shortName, trimLeads_trimLeads]
  rw [known?, ← shortName]
  generalize resolver.shortName candidate = short at collects ⊢
  dsimp only
  by_cases refused : short.isEmpty || resolver.isCollection short
  · rw [if_pos refused]
    have excluded : short = "" ∨ short ∈ resolver.collections := by
      simpa [collects] using refused
    refine ⟨nofun, fun ⟨nonempty, apart, _⟩ => ?_⟩
    exact absurd excluded (by simp [nonempty, apart])
  · rw [if_neg refused]
    have allowed : short ≠ "" ∧ short ∉ resolver.collections := by
      simpa [collects] using refused
    by_cases whole : resolver.introspector.typeExists short
    · rw [if_pos whole, Option.some.injEq]
      constructor
      · rintro rfl
        exact ⟨allowed.1, allowed.2, .whole whole⟩
      · rintro ⟨_, _, named⟩
        cases named with
        | whole _ => rfl
        | qualified unknown _ _ => exact absurd whole unknown
    · rw [if_neg whole]
      constructor
      · intro found
        split at found
        · contradiction
        · next namespace_ last cut =>
          obtain ⟨known, same⟩ := Option.ite_none_right_eq_some.mp found
          cases same
          exact ⟨allowed.1, allowed.2, .qualified whole cut known⟩
      · rintro ⟨_, _, named⟩
        cases named with
        | whole known => exact absurd known whole
        | qualified _ cut known => simp only [cut, known, if_true]

def getter (resolver : Resolver) (field : String) : String :=
  "get" ++ camelCase resolver.separator field

theorem fieldType?_eq : resolver.fieldType? owner field =
    ((resolver.introspector.accessor owner (resolver.getter field)).bind
      (resolver.ofAccessor? owner)).or
        ((resolver.introspector.property owner field).bind (resolver.ofProperty? owner)) := by
  rw [fieldType?, ← getter]
  split
  · next found => rw [found, Option.some_or]
  · next absent => rw [absent, Option.none_or]

theorem exists_known?_of_fieldType? (leads : resolver.fieldType? owner field = some type) :
    ∃ candidate, resolver.known? owner candidate = some type := by
  rw [fieldType?_eq, Option.or_eq_some_iff] at leads
  rcases leads with found | ⟨_, found⟩
  · obtain ⟨accessor, _, found⟩ := Option.bind_eq_some_iff.mp found
    obtain ⟨candidate, _, named⟩ := Option.bind_eq_some_iff.mp found
    exact ⟨candidate, named⟩
  · obtain ⟨property, _, found⟩ := Option.bind_eq_some_iff.mp found
    unfold ofProperty? at found
    split at found
    · next related =>
      obtain ⟨relation, _, named⟩ := List.exists_of_findSome?_eq_some related
      exact ⟨relation.target, found ▸ named⟩
    · obtain ⟨candidate, _, named⟩ := Option.bind_eq_some_iff.mp found
      exact ⟨candidate, named⟩

/-- A field leads to a known type, which is a collection only where the namespace of the owner
completes a short name to it that neither is a collection nor a known type itself. -/
theorem typeExists_of_fieldType? (leads : resolver.fieldType? owner field = some type) :
    resolver.introspector.typeExists type ∧
      (type ∈ resolver.collections → ∃ namespace_ last short,
        Text.cutLast? resolver.separator owner = some (namespace_, last) ∧
          type = namespace_ ++ resolver.separator ++ short ∧ short ≠ "" ∧
            short ∉ resolver.collections ∧ ¬ resolver.introspector.typeExists short) := by
  obtain ⟨candidate, named⟩ := exists_known?_of_fieldType? leads
  obtain ⟨nonempty, apart, named⟩ := known?_eq_some_iff.mp named
  cases named with
  | whole known => exact ⟨known, fun collection => absurd collection apart⟩
  | qualified unknown cut known =>
    exact ⟨known, fun _ => ⟨_, _, _, cut, rfl, nonempty, apart, unknown⟩⟩

section Bags

def bagSchema : Schema :=
  (Schema.empty.insert "App\\Util\\Order"
    (TypeSchema.empty.addAccessor "getItems" { returns := some "Bag" })).insert
      "App\\Util\\Bag" .empty

def bagResolver : Resolver :=
  { introspector := bagSchema.introspector
    separator := "\\"
    collections := ["App\\Util\\Bag"] }

theorem fieldType?_bagResolver :
    bagResolver.fieldType? "App\\Util\\Order" "items" = some "App\\Util\\Bag" := by
  decide +kernel

theorem typeExists_of_fieldType?_bags :
    bagResolver.fieldType? "App\\Util\\Order" "items" = some "App\\Util\\Bag" ∧
      bagResolver.introspector.typeExists "App\\Util\\Bag" :=
  ⟨fieldType?_bagResolver, (typeExists_of_fieldType? fieldType?_bagResolver).1⟩

/-- The items of an order lead to a collection. -/
theorem not_forall_not_mem_collections :
    ¬ ∀ (resolver : Resolver) (owner field type : String),
      resolver.fieldType? owner field = some type →
        resolver.introspector.typeExists type ∧ type ∉ resolver.collections := by
  intro apart
  exact (apart bagResolver _ _ _ fieldType?_bagResolver).2 (List.mem_singleton.mpr rfl)

end Bags

end Resolver

end Visibility
