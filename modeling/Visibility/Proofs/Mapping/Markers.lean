import Visibility.Proofs.Mapping.Following

set_option autoImplicit false
set_option relaxedAutoImplicit false

/-!
Markers that no key defines.

The condition of a marker is looked up where the walk comes to a field behind the marker.  There an
undefined marker fails the parse.  A marker with no such field behind it is not looked up at all, so
that a misspelt directive of a level goes unnoticed.
-/

namespace Visibility

def Conditions.Lacks (conditions : Conditions) (marker : String) : Prop :=
  conditions.named.get? marker = none

namespace Segment

/-- Segments among which one defines the condition of a marker. -/
def Define (segments : List String) (marker : String) : Prop :=
  ∃ segment ∈ segments, classify segment = .namedSecurity marker

/-- A key puts a marker before a field, on the part of its path that leads to a type; between the two
there is no other marker, and no segment up to the field defines the marker. -/
inductive Marks (resolver : Resolver) (owner name marker : String) : Prop where
  | intro {before between later : List String} {field type : String}
      (path : path name = before ++ marker :: (between ++ field :: later))
      (marked : IsMarker marker)
      (directives : ∀ segment ∈ between, ¬ IsMarker segment ∧ ¬ IsField segment)
      (plain : IsField field) (owned : resolver.after? (some owner) before = some type)
      (undefined : ¬ Define (before ++ between) marker) : Marks resolver owner name marker

instance (segments : List String) (marker : String) : Decidable (Define segments marker) :=
  inferInstanceAs (Decidable (∃ segment ∈ segments, classify segment = .namedSecurity marker))

theorem keeps_undefined {segments : List String} {marker : String}
    (undefined : ¬ Define segments marker) : Keeps (·.Lacks marker) segments where
  security _ _ _ _ _ lacks := lacks
  namedSecurity segment present defined classified conditions expression lacks := by
    have apart : marker ≠ defined := by
      rintro rfl
      exact undefined ⟨segment, present, classified⟩
    rw [Conditions.Lacks, Conditions.define, Dict.get?_insert, if_neg apart]
    exact lacks

theorem not_define_of_isHoisted {key marker : String} (hoisted : isHoisted key = true)
    (other : key ≠ securityKey ++ marker) : ¬ Define (path key) marker := by
  rintro ⟨segment, present, classified⟩
  rw [(isDirective_of_isHoisted hoisted).1] at present
  cases List.mem_singleton.mp present
  obtain ⟨starts, rfl⟩ := classify_eq_namedSecurity_iff.mp classified
  exact other (append_markerOf starts).symm

end Segment

namespace Walk

variable {resolver : Resolver} {scope : Scope} {parent : Option FieldRef} {conditions : Conditions}
  {value : Yaml} {below : Below} {place next : Place}

theorem Passes.same {segment : String} (passes : Passes resolver scope segment place next)
    (directive : ¬ Segment.IsMarker segment ∧ ¬ Segment.IsField segment) :
    next.owner = place.owner ∧ next.marker? = place.marker? := by
  cases passes with
  | define => exact ⟨rfl, rfl⟩
  | secure => exact ⟨rfl, rfl⟩
  | limit => exact ⟨rfl, rfl⟩
  | mark classified => exact absurd (Segment.isMarker_of_classify classified) directive.1
  | visit classified => exact absurd (Segment.isField_of_classify classified) directive.2

theorem not_follow_of_undefined {key type marker field : String} {between later : List String}
    (directives : ∀ segment ∈ between, ¬ Segment.IsMarker segment ∧ ¬ Segment.IsField segment)
    (plain : Segment.IsField field) (keeps : Segment.Keeps (·.Lacks marker) between)
    (lacks : conditions.Lacks marker) (outcome : Conditions × List Step) :
    follow resolver scope parent key value below (between ++ field :: later) (some type)
      (some marker) conditions ≠ .ok outcome := by
  intro walked
  induction between generalizing conditions outcome with
  | nil =>
    rw [List.nil_append, follow, plain] at walked
    obtain ⟨condition, marked, _⟩ := Except.bind_eq_ok_iff.mp walked
    obtain ⟨found, defined, _⟩ := Conditions.ofMarker_eq_ok_iff.mp marked
    cases defined.symm.trans lacks
  | cons segment rest ih =>
    obtain ⟨directive, directivesLater⟩ := List.forall_mem_cons.mp directives
    rcases follow_cons_cases walked with ⟨next, more, passes, walkedRest⟩ | ⟨stops, _⟩
    · obtain ⟨sameOwner, sameMarker⟩ := passes.same directive
      rw [sameOwner, sameMarker] at walkedRest
      exact ih directivesLater keeps.tail (passes.keeps keeps lacks) _ walkedRest
    · exact absurd stops.isField directive.2

theorem level_ne_ok_of_undefined {owner name marker : String} {earlier later : Tree}
    {key value : Yaml} {inherited : Option String} (named : key.text? = some name)
    (marks : Segment.Marks resolver owner name marker)
    (whole : ∀ pair ∈ earlier ++ (key, value) :: later,
      pair.1.text? ≠ some (Segment.securityKey ++ marker))
    (dotted : ∀ pair ∈ earlier, ∀ other, pair.1.text? = some other →
      ¬ Segment.Define (Segment.path other) marker) (steps : List Step) :
    level resolver scope (some owner) parent inherited (earlier ++ (key, value) :: later) ≠
      .ok steps := by
  intro walked
  rcases marks with
    @⟨before, between, _, field, type, path, marked, directives, plain, owned, undefined⟩
  have keepsHoisted : Tree.Keeps (·.Lacks marker) true (earlier ++ (key, value) :: later) := by
    intro pair present other spelled hoisted
    refine Segment.keeps_undefined (Segment.not_define_of_isHoisted hoisted ?_)
    rintro rfl
    exact whole pair present spelled
  have keepsEarlier : earlier.Keeps (·.Lacks marker) false :=
    fun pair present other spelled _ => Segment.keeps_undefined (dotted pair present other spelled)
  obtain ⟨started, _, lacks, walkedKey⟩ :=
    exists_key_of_level keepsHoisted keepsEarlier (Dict.get?_empty marker) walked
  have free : Segment.isHoisted name = false := by
    refine Segment.not_isHoisted_of_mem_path ?_ (.inl marked)
    rw [path]
    exact List.mem_append_right before List.mem_cons_self
  have keepsOwn := Segment.keeps_undefined undefined
  obtain ⟨_, there, outcome, lacksThere, walkedMarker⟩ := exists_follow_of_key named path free
    (keepsOwn.mono (List.subset_append_left before between)) lacks owned walkedKey
  rw [follow, marked] at walkedMarker
  exact not_follow_of_undefined directives plain
    (keepsOwn.mono (List.subset_append_right before between)) lacksThere outcome walkedMarker

end Walk

namespace Definition

variable {definition : Definition} {resolver : Resolver}

/-- A definition has no tables where the walk comes to a level that puts a marker before a field while
it has no key for the condition of the marker, and no earlier key defines it on its path. -/
theorem exists_error_of_undefined {type group owner name marker : String}
    {tree earlier later : Tree} {key value : Yaml} (declared : tree ∈ definition.trees type group)
    (reached : Walk.Reaches resolver (some type) tree (some owner)
      (earlier ++ (key, value) :: later))
    (named : key.text? = some name) (marks : Segment.Marks resolver owner name marker)
    (whole : ∀ pair ∈ earlier ++ (key, value) :: later,
      pair.1.text? ≠ some (Segment.securityKey ++ marker))
    (dotted : ∀ pair ∈ earlier, ∀ other, pair.1.text? = some other →
      ¬ Segment.Define (Segment.path other) marker) :
    ∃ error, definition.tables resolver = .error error := by
  cases built : definition.tables resolver with
  | error error => exact ⟨error, rfl⟩
  | ok tables =>
    obtain ⟨steps, walked, _⟩ := tables_eq_ok_iff.mp built
    obtain ⟨_, _, walkedTree⟩ := exists_level_of_steps walked declared
    obtain ⟨_, _, own, walkedLevel⟩ := Walk.exists_level_of_reaches reached walkedTree
    exact absurd walkedLevel (Walk.level_ne_ok_of_undefined named marks whole dotted own)

theorem reaches_publisher (publisher : Tree) :
    Walk.Reaches bookResolver (some "Book") [(.string "publisher", .mapping publisher)]
      (some "Publisher") publisher := by
  have path : Segment.path "publisher" = [] ++ ["publisher"] := by decide +kernel
  have leads : bookResolver.fieldType? "Book" "publisher" = some "Publisher" := by decide +kernel
  refine .inside List.mem_cons_self rfl path (by decide +kernel) rfl ?_
  rw [leads]
  exact .self

/-- A publisher that defines the condition of one marker and puts another one before a field. -/
def strayPublisher : Tree :=
  [(.string "_security_admin", .string "is_granted('ADMIN')"), (.string "_admin.contact", .null)] ++
    (.string "_owner.name", .null) :: []

def strayBooks : Definition :=
  Definition.empty.push "Book" "item.normalization.get"
    [(.string "publisher", .mapping strayPublisher)]

theorem exists_error_of_undefined_strayBooks :
    Segment.Marks bookResolver "Publisher" "_owner.name" "_owner" ∧
      (∀ pair ∈ strayPublisher, pair.1.text? ≠ some (Segment.securityKey ++ "_owner")) ∧
      ∃ error, strayBooks.tables bookResolver = .error error := by
  have declared : [(.string "publisher", .mapping strayPublisher)] ∈
      strayBooks.trees "Book" "item.normalization.get" := List.mem_singleton_self _
  have path : Segment.path "_owner.name" = [] ++ "_owner" :: ([] ++ "name" :: []) := by
    decide +kernel
  have marks : Segment.Marks bookResolver "Publisher" "_owner.name" "_owner" :=
    .intro path (by decide +kernel) (by nofun) (by decide +kernel) rfl (by decide +kernel)
  have whole : ∀ pair ∈ strayPublisher, pair.1.text? ≠ some (Segment.securityKey ++ "_owner") := by
    decide +kernel
  have dotted : ∀ pair ∈ ([(.string "_security_admin", .string "is_granted('ADMIN')"),
      (.string "_admin.contact", .null)] : Tree), ∀ other, pair.1.text? = some other →
      ¬ Segment.Define (Segment.path other) "_owner" := by
    intro pair present other spelled
    simp only [List.mem_cons, List.not_mem_nil, or_false] at present
    rcases present with rfl | rfl
    · cases spelled
      decide +kernel
    · cases spelled
      decide +kernel
  exact ⟨marks, whole,
    exists_error_of_undefined declared (reaches_publisher strayPublisher) rfl marks whole dotted⟩

def misspeltBooks : Definition :=
  Definition.empty.push "Book" "item.normalization.get"
    [(.string "publisher", .mapping
      [(.string "_securty", .string "is_granted('ADMIN')"), (.string "contact", .null)])]

/-- An undefined marker with no field behind it fails nothing. -/
theorem not_forall_exists_error :
    ¬ ∀ (resolver : Resolver) (definition : Definition) (type group owner name marker : String)
      (tree level : Tree) (key value : Yaml), tree ∈ definition.trees type group →
      Walk.Reaches resolver (some type) tree (some owner) level → (key, value) ∈ level →
      key.text? = some name → marker ∈ Segment.path name → Segment.IsMarker marker →
      (∀ pair ∈ level, pair.1.text? ≠ some (Segment.securityKey ++ marker)) →
      ∃ error, definition.tables resolver = .error error := by
  intro fails
  let publisher : Tree :=
    [(.string "_securty", .string "is_granted('ADMIN')"), (.string "contact", .null)]
  have declared : [(.string "publisher", .mapping publisher)] ∈
      misspeltBooks.trees "Book" "item.normalization.get" := List.mem_singleton_self _
  obtain ⟨error, failed⟩ := fails bookResolver misspeltBooks "Book" "item.normalization.get"
    "Publisher" "_securty" "_securty" _ publisher _ _ declared (reaches_publisher publisher)
    List.mem_cons_self rfl (by decide +kernel) (by decide +kernel) (by decide +kernel)
  obtain ⟨tables, built⟩ : ∃ tables, misspeltBooks.tables bookResolver = .ok tables :=
    Except.exists_of_isOk (by decide +kernel)
  rw [built] at failed
  contradiction

end Definition

end Visibility
