import Visibility.Proofs.Mapping.Rewriting

set_option autoImplicit false
set_option relaxedAutoImplicit false

/-!
Paths with dots, and maps in one another.

A path of several fields asks for the same steps as the key of its first field, behind the same marker,
with a map that holds the rest of the path.  The main statement says so of whole definitions.
-/

namespace Visibility

/-- A level with a key that spells a path of several fields, and the level that has in its place the
key of the first field with a map of the rest of the path. -/
inductive Tree.Nests : Tree → Tree → Prop where
  | intro {before after : Tree} {key value : Yaml} {name short inner first second : String}
      {marker? : Option String} {rest : List String} (named : key.text? = some name)
      (dotted : Segment.Spells name marker? (first :: second :: rest))
      (shortened : Segment.Spells short marker? [first])
      (nested : Segment.Spells inner none (second :: rest)) :
      Nests (before ++ (key, value) :: after)
        (before ++ (.string short, .mapping [(.string inner, value)]) :: after)

namespace Walk

variable {resolver : Resolver} {scope : Scope} {owner : Option String} {parent : Option FieldRef}
  {conditions : Conditions} {key value : Yaml} {name : String} {before after : Tree}

section Skip

variable (named : key.text? = some name) (free : Segment.isHoisted name = false)

include named free

theorem ownSecurity_skip (conditions : Conditions) :
    ownSecurity scope parent conditions (before ++ (key, value) :: after) =
      ownSecurity scope parent conditions (before ++ after) := by
  have other : name ≠ Segment.securityKey := by
    rintro rfl
    exact absurd free (by decide +kernel)
  have read : scope.keyName key = .ok name := Scope.keyName_eq_ok_iff.mpr named
  induction before generalizing conditions with
  | nil => simp only [List.nil_append, ownSecurity, read, Except.ok_bind, other, if_false]
  | cons first before ih => simp only [List.cons_append, ownSecurity, ih]

theorem namedSecurity_skip (conditions : Conditions) :
    namedSecurity scope conditions (before ++ (key, value) :: after) =
      namedSecurity scope conditions (before ++ after) := by
  have read : scope.keyName key = .ok name := Scope.keyName_eq_ok_iff.mpr named
  induction before generalizing conditions with
  | nil =>
    simp only [List.nil_append, namedSecurity, read, Except.ok_bind, free, Bool.false_eq_true,
      false_and, if_false]
  | cons first before ih => simp only [List.cons_append, namedSecurity, ih]

theorem hoisted_skip (inherited : Option String) :
    hoisted scope parent inherited (before ++ (key, value) :: after) =
      hoisted scope parent inherited (before ++ after) := by
  simp only [hoisted, ownSecurity_skip named free, namedSecurity_skip named free]

theorem guardsItself_skip :
    guardsItself (.mapping (before ++ (key, value) :: after)) =
      guardsItself (.mapping (before ++ after)) := by
  have other : name ≠ Segment.securityKey := by
    rintro rfl
    exact absurd free (by decide +kernel)
  have differ : (name == Segment.securityKey) = false := by simpa using other
  simp [guardsItself, Yaml.pairs?, Yaml.untagged, named, differ]

end Skip

theorem key_of_text {below : Below} (named : key.text? = some name) :
    Walk.key resolver scope owner parent conditions key value below =
      Walk.key resolver scope owner parent conditions (.string name) value below := by
  have read : scope.keyName key = .ok name := Scope.keyName_eq_ok_iff.mpr named
  have readText : scope.keyName (.string name) = .ok name := rfl
  simp only [Walk.key, read, readText]

theorem visitSteps_agrees (first second : String) (below : Below) (condition : Option String)
    (visit : FieldRef × Bool) :
    Except.Agree (· = ·) (visitSteps resolver scope first value below condition visit)
      (visitSteps resolver scope second value below condition visit) := by
  have descended (owner : Option String) (ref : FieldRef) :
      Except.Agree (· = ·) (descend scope first value below owner condition ref)
        (descend scope second value below owner condition ref) := by
    cases value with
    | null | mapping => exact .refl (fun _ => rfl) _
    | _ => exact .failed _ _
  unfold visitSteps
  cases visit.2 with
  | false => exact .refl (fun _ => rfl) _
  | true =>
    refine .bind (descended _ _) fun more _ same => ?_
    subst same
    exact .came rfl

theorem level_of_path {inner : String} {fields : List String} {inherited : Option String}
    (spelled : Segment.Spells inner none fields) :
    level resolver scope owner parent inherited [(.string inner, value)] =
      match owner with
      | none => .ok []
      | some type =>
        collect (visitSteps resolver scope inner value (inside resolver scope value) inherited)
          (resolver.visits type fields) := by
  have named : (Yaml.string inner).text? = some inner := rfl
  have bare : hoisted scope parent inherited ([] ++ (.string inner, value) :: []) =
      hoisted scope parent inherited ([] ++ []) :=
    hoisted_skip named spelled.not_isHoisted inherited
  have none_ : hoisted scope parent inherited [] = .ok ({ inherited := inherited }, []) := rfl
  rw [List.nil_append, List.nil_append, none_] at bare
  cases owner with
  | none => simp [level, bare, keys, key_of_spelled_none spelled, Except.ok_bind, Pure.pure, Except.pure]
  | some type =>
    simp only [level, bare, keys, key_of_spelled spelled, Conditions.ofMarker, Except.ok_bind]
    cases collect (visitSteps resolver scope inner value (inside resolver scope value) inherited)
        (resolver.visits type fields) with
    | error error => rfl
    | ok steps => simp

section Nested

variable {short inner first second : String} {marker? : Option String} {rest : List String}
  (nested : Segment.Spells inner none (second :: rest))

include nested

/-- The first field of a path, visited with a map of the rest as its value, asks for the whole path. -/
theorem collect_visits_agrees (type : String) (condition : Option String) :
    Except.Agree (· = ·)
      (collect (visitSteps resolver scope name value (inside resolver scope value) condition)
        (resolver.visits type (first :: second :: rest)))
      (collect (visitSteps resolver scope short (.mapping [(.string inner, value)])
          (inside resolver scope (.mapping [(.string inner, value)])) condition)
        (resolver.visits type [first])) := by
  have unguarded : guardsItself (.mapping ([] ++ (.string inner, value) :: [])) =
      guardsItself (.mapping ([] ++ [])) := guardsItself_skip rfl nested.not_isHoisted
  have none_ : guardsItself (.mapping []) = false := rfl
  rw [List.nil_append, List.nil_append, none_] at unguarded
  have passed : visitSteps resolver scope name value (inside resolver scope value) condition
      (⟨type, first⟩, false) = .ok (fieldSteps scope ⟨type, first⟩ condition false) := by
    simp [visitSteps]
  rw [resolver.visits_singleton, Resolver.visits, List.isEmpty_cons, collect, passed,
    Except.ok_bind]
  simp only [collect, visitSteps, if_true, descend_mapping, level_of_path nested, unguarded,
    Bool.and_false]
  cases resolver.fieldType? type first with
  | none => exact .came (List.append_nil _).symm
  | some next =>
    have walked : Except.Agree (· = ·)
        (collect (visitSteps resolver scope name value (inside resolver scope value) condition)
          (resolver.visits next (second :: rest)))
        (collect (visitSteps resolver scope inner value (inside resolver scope value) condition)
          (resolver.visits next (second :: rest))) :=
      collect_agrees_of_forall congruent_eq (visitSteps_agrees name inner _ condition) _
    dsimp only
    generalize collect (visitSteps resolver scope name value (inside resolver scope value) condition)
      (resolver.visits next (second :: rest)) = outcome at walked ⊢
    generalize collect (visitSteps resolver scope inner value (inside resolver scope value) condition)
      (resolver.visits next (second :: rest)) = outcome' at walked ⊢
    cases walked with
    | failed => exact .failed _ _
    | came same =>
      subst same
      exact .came (List.append_nil _).symm

theorem key_agrees_of_nested (named : key.text? = some name)
    (dotted : Segment.Spells name marker? (first :: second :: rest))
    (shortened : Segment.Spells short marker? [first]) :
    Except.Agree (Related (· = ·))
      (Walk.key resolver scope owner parent conditions key value (inside resolver scope value))
      (Walk.key resolver scope owner parent conditions (.string short)
        (.mapping [(.string inner, value)])
        (inside resolver scope (.mapping [(.string inner, value)]))) := by
  rw [key_of_text named]
  cases owner with
  | none =>
    rw [key_of_spelled_none dotted, key_of_spelled_none shortened]
    exact .came ⟨.refl conditions, rfl⟩
  | some type =>
    rw [key_of_spelled dotted, key_of_spelled shortened]
    refine .same_bind _ fun condition => ?_
    refine .bind (collect_visits_agrees nested type condition) fun steps _ same => ?_
    exact .came ⟨.refl conditions, same⟩

end Nested

theorem agrees_of_nests {tree again : Tree} (nests : tree.Nests again) :
    Agrees (· = ·) resolver scope tree again := by
  obtain @⟨before, after, key, value, name, short, inner, first, second, marker?, rest, named, dotted,
    shortened, nested⟩ := nests
  have shortNamed : (Yaml.string short).text? = some short := rfl
  have freeKey : Segment.isHoisted name = false := dotted.not_isHoisted
  have freeShort : Segment.isHoisted short = false := shortened.not_isHoisted
  constructor
  case empty => cases before <;> rfl
  case guards =>
    rw [guardsItself_skip named freeKey, guardsItself_skip shortNamed freeShort]
  case level =>
    intro owner parent inherited
    unfold level
    rw [hoisted_skip named freeKey, hoisted_skip shortNamed freeShort]
    refine .same_bind _ fun own => ?_
    have walkedKey (conditions : Conditions) :
        Except.Agree (Related (· = ·))
          (Walk.key resolver scope owner parent conditions key value (inside resolver scope value))
          (Walk.key resolver scope owner parent conditions (.string short)
            (.mapping [(.string inner, value)])
            (inside resolver scope (.mapping [(.string inner, value)]))) :=
      key_agrees_of_nested nested named dotted shortened
    refine .bind (keys_agree_at congruent_eq walkedKey before after own.1) fun more _ same => ?_
    exact .came (congrArg (own.2 ++ ·) same)

end Walk

namespace Definition

/-- Definitions that differ in whether paths are spelled with dots or as maps in one another have the
same tables, or none at all. -/
theorem tables_eq_ok_iff_of_nests {definition other : Definition}
    (nests : definition.Relates (Tree.Rewrites Tree.Nests) other) (resolver : Resolver)
    (tables : Tables) :
    definition.tables resolver = .ok tables ↔ other.tables resolver = .ok tables := by
  have walked : Except.Agree (· = ·) (definition.steps resolver) (other.steps resolver) :=
    steps_agree Walk.congruent_eq
      (fun _ _ _ _ rewrites => Walk.agrees_of_rewrites Walk.congruent_eq
        (fun _ _ nested => Walk.agrees_of_nests nested) rewrites) nests
  simp only [tables_eq_ok_iff]
  generalize definition.steps resolver = outcome at walked
  generalize other.steps resolver = again at walked
  cases walked with
  | failed => simp
  | came same => rw [same]

/-- Books with a marked path that ends behind a field of no known type. -/
def dottedBooks : Definition :=
  Definition.empty.push "Book" "item.normalization.get"
    [(.string "_security_admin", .string "is_granted('ADMIN')"),
      (.string "_admin.publisher.contact.name", .null)]

def nestedBooks : Definition :=
  Definition.empty.push "Book" "item.normalization.get"
    [(.string "_security_admin", .string "is_granted('ADMIN')"),
      (.string "_admin.publisher", .mapping [(.string "contact.name", .null)])]

theorem tables_eq_ok_iff_of_nests_dottedBooks :
    dottedBooks.Relates (Tree.Rewrites Tree.Nests) nestedBooks ∧
      ∃ tables, dottedBooks.tables bookResolver = .ok tables ∧
        nestedBooks.tables bookResolver = .ok tables := by
  let admin : Yaml × Yaml := (.string "_security_admin", .string "is_granted('ADMIN')")
  have dotted : Segment.Spells "_admin.publisher.contact.name" (some "_admin")
      ["publisher", "contact", "name"] := by decide +kernel
  have shortened : Segment.Spells "_admin.publisher" (some "_admin") ["publisher"] := by
    decide +kernel
  have nested : Segment.Spells "contact.name" none ["contact", "name"] := by decide +kernel
  have nests : Tree.Nests ([admin] ++ (.string "_admin.publisher.contact.name", .null) :: [])
      ([admin] ++ (.string "_admin.publisher", .mapping [(.string "contact.name", .null)]) :: []) :=
    .intro rfl dotted shortened nested
  have relates : dottedBooks.Relates (Tree.Rewrites Tree.Nests) nestedBooks :=
    .cons ⟨rfl, .cons ⟨rfl, .cons (.here nests) .nil⟩ .nil⟩ .nil
  obtain ⟨tables, built⟩ : ∃ tables, dottedBooks.tables bookResolver = .ok tables :=
    Except.exists_of_isOk (by decide +kernel)
  exact ⟨relates, tables, built, (tables_eq_ok_iff_of_nests relates bookResolver tables).mp built⟩

end Definition

end Visibility
