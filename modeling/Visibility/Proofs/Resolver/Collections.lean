import Visibility.Proofs.Resolver.Known

set_option autoImplicit false
set_option relaxedAutoImplicit false

/-!
Fields that are declared as collections.

The main statement says what becomes of a field without a declared type when a collection is
declared for it.  A collection that its accessor returns counts as no declared type at all.  A collection that
is the type of its property also hides the comment of the property, though the name of the element
stands there.
-/

namespace Visibility

namespace Introspector

def setAccessor (introspector : Introspector) (owner method : String) (accessor : Accessor) :
    Introspector :=
  { introspector with
    accessor := fun type name =>
      if type = owner ∧ name = method then some accessor else introspector.accessor type name }

def setProperty (introspector : Introspector) (owner name : String) (property : Property) :
    Introspector :=
  { introspector with
    property := fun type other =>
      if type = owner ∧ other = name then some property else introspector.property type other }

end Introspector

namespace Resolver

variable {resolver : Resolver} {owner field name : String}

def setAccessor (resolver : Resolver) (owner field : String) (accessor : Accessor) : Resolver :=
  { resolver with
    introspector := resolver.introspector.setAccessor owner (resolver.getter field) accessor }

def setProperty (resolver : Resolver) (owner field : String) (property : Property) : Resolver :=
  { resolver with introspector := resolver.introspector.setProperty owner field property }

theorem fieldType?_setAccessor (accessor : Accessor) :
    (resolver.setAccessor owner field accessor).fieldType? owner field =
      (resolver.ofAccessor? owner accessor).or
        ((resolver.introspector.property owner field).bind (resolver.ofProperty? owner)) := by
  have declared : (resolver.setAccessor owner field accessor).introspector.accessor owner
      ((resolver.setAccessor owner field accessor).getter field) = some accessor :=
    if_pos ⟨rfl, rfl⟩
  rw [fieldType?_eq, declared]
  rfl

theorem fieldType?_setProperty (property : Property) :
    (resolver.setProperty owner field property).fieldType? owner field =
      ((resolver.introspector.accessor owner (resolver.getter field)).bind
        (resolver.ofAccessor? owner)).or (resolver.ofProperty? owner property) := by
  have declared : (resolver.setProperty owner field property).introspector.property owner field =
      some property :=
    if_pos ⟨rfl, rfl⟩
  rw [fieldType?_eq, declared]
  rfl

/-- A configured collection, written without blanks around it and without separators before it. -/
structure IsPlainCollection (resolver : Resolver) (name : String) : Prop where
  configured : name ∈ resolver.collections
  tight : Text.trim name = name
  bare : resolver.trimLeads name = name

namespace IsPlainCollection

theorem isCollection (plain : resolver.IsPlainCollection name) : resolver.isCollection name :=
  isCollection_iff.mpr (plain.bare.symm ▸ plain.configured)

theorem known?_eq_none (plain : resolver.IsPlainCollection name) :
    resolver.known? owner name = none := by
  refine Option.eq_none_iff_forall_ne_some.mpr fun type named => ?_
  have short : resolver.shortName name = name := by
    rw [shortName, plain.tight, plain.bare]
  exact (known?_eq_some_iff.mp named).2.1 (short.symm ▸ plain.configured)

theorem ofAccessor?_eq (plain : resolver.IsPlainCollection name) {accessor : Accessor}
    (undeclared : accessor.returns = none) :
    resolver.ofAccessor? owner { accessor with returns := some name } =
      resolver.ofAccessor? owner accessor := by
  have dropped : (some name).filter (fun type => !resolver.isCollection type) = none := by
    rw [Option.filter_some_neg]
    simp [plain.isCollection]
  simp only [ofAccessor?, undeclared, dropped, Option.filter_none]

theorem ofProperty?_eq (plain : resolver.IsPlainCollection name) {property : Property}
    (undeclared : property.type = none) :
    resolver.ofProperty? owner { property with type := some name } =
      resolver.ofProperty? owner { property with doc := none } := by
  unfold ofProperty?
  dsimp only
  split
  · rfl
  · simp [undeclared, plain.known?_eq_none]

end IsPlainCollection

/-- A collection declared for a field without a declared type.  Where the accessor of the field
returns it, the field leads where it led before; where it is the type of the property, the field
leads where it would lead without the comment of the property. -/
theorem fieldType?_of_isPlainCollection (plain : resolver.IsPlainCollection name) :
    (∀ accessor, resolver.introspector.accessor owner (resolver.getter field) = some accessor →
      accessor.returns = none →
        (resolver.setAccessor owner field { accessor with returns := some name }).fieldType? owner
            field = resolver.fieldType? owner field) ∧
      (∀ property, resolver.introspector.property owner field = some property →
        property.type = none →
          (resolver.setProperty owner field { property with type := some name }).fieldType? owner
              field =
            (resolver.setProperty owner field { property with doc := none }).fieldType? owner
              field) := by
  constructor
  · intro accessor found undeclared
    rw [fieldType?_setAccessor, plain.ofAccessor?_eq undeclared, fieldType?_eq, found,
      Option.bind_some]
  · intro property _ undeclared
    rw [fieldType?_setProperty, fieldType?_setProperty, plain.ofProperty?_eq undeclared]

section Reviews

def reviewSchema : Schema :=
  (Schema.empty.insert "Book"
    ((TypeSchema.empty.addAccessor "getReviews" { doc := some "@return Review[]" }).addProperty
      "critics" { doc := some "@var Critic[]" })).insert "Review" .empty |>.insert "Critic" .empty

def reviewResolver : Resolver :=
  { introspector := reviewSchema.introspector
    separator := "\\"
    collections := ["Collection"] }

theorem isPlainCollection_reviewResolver : reviewResolver.IsPlainCollection "Collection" where
  configured := List.mem_singleton.mpr rfl
  tight := by decide +kernel
  bare := by decide +kernel

theorem fieldType?_of_isPlainCollection_reviews :
    (reviewResolver.setAccessor "Book" "reviews"
        { returns := some "Collection", doc := some "@return Review[]" }).fieldType? "Book"
          "reviews" = some "Review" ∧
      (reviewResolver.setProperty "Book" "critics"
        { type := some "Collection", doc := some "@var Critic[]" }).fieldType? "Book"
          "critics" = none := by
  constructor
  · refine ((fieldType?_of_isPlainCollection isPlainCollection_reviewResolver).1
      { doc := some "@return Review[]" } ?_ rfl).trans ?_ <;> decide +kernel
  · refine ((fieldType?_of_isPlainCollection isPlainCollection_reviewResolver).2
      { doc := some "@var Critic[]" } ?_ rfl).trans ?_ <;> decide +kernel

/-- The critics of a book are lost once they are declared as a collection. -/
theorem not_forall_fieldType?_setProperty :
    ¬ ∀ (resolver : Resolver) (owner field name : String) (property : Property),
      resolver.IsPlainCollection name →
        resolver.introspector.property owner field = some property → property.type = none →
          (resolver.setProperty owner field { property with type := some name }).fieldType? owner
            field = resolver.fieldType? owner field := by
  intro keeps
  have same := keeps reviewResolver "Book" "critics" "Collection" { doc := some "@var Critic[]" }
    isPlainCollection_reviewResolver (by decide +kernel) rfl
  have before : reviewResolver.fieldType? "Book" "critics" = some "Critic" := by decide +kernel
  have after : (reviewResolver.setProperty "Book" "critics"
      { type := some "Collection", doc := some "@var Critic[]" }).fieldType? "Book" "critics" =
        none := by
    decide +kernel
  cases after.symm.trans (same.trans before)

end Reviews

end Resolver

end Visibility
