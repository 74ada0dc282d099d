import Visibility.Mapping.Walk
import Visibility.Proofs.Text.Split

set_option autoImplicit false
set_option relaxedAutoImplicit false

/-!
A declarative reading of attribute trees.

A tree is regular when each of its keys is either a whole directive or the path of some fields, with
at most one marker before it.  In such a tree a field occurs wherever a path reaches it, under the
guards of all levels around it, outermost first.
-/

namespace Visibility

namespace Segment

def IsMarker (segment : String) : Prop :=
  classify segment = .marker segment

def IsField (segment : String) : Prop :=
  classify segment = .field segment

def IsDirective (key : String) : Prop :=
  path key = [key] ∧ ¬ IsMarker key ∧ ¬ IsField key

/-- A key that spells the path of some fields, with at most one marker before it. -/
structure Spells (key : String) (marker? : Option String) (fields : List String) : Prop where
  path : path key = marker?.toList ++ fields
  named : fields ≠ []
  marked : ∀ marker ∈ marker?, IsMarker marker
  plain : ∀ field ∈ fields, IsField field

instance (segment : String) : Decidable (IsMarker segment) :=
  inferInstanceAs (Decidable (_ = _))

instance (segment : String) : Decidable (IsField segment) :=
  inferInstanceAs (Decidable (_ = _))

instance (key : String) : Decidable (IsDirective key) :=
  inferInstanceAs (Decidable (_ ∧ _))

instance (key : String) (marker? : Option String) (fields : List String) :
    Decidable (Spells key marker? fields) :=
  decidable_of_iff
    (Segment.path key = marker?.toList ++ fields ∧ fields ≠ [] ∧
      (∀ marker ∈ marker?, IsMarker marker) ∧ ∀ field ∈ fields, IsField field)
    ⟨fun ⟨path, named, marked, plain⟩ => ⟨path, named, marked, plain⟩,
      fun ⟨path, named, marked, plain⟩ => ⟨path, named, marked, plain⟩⟩

end Segment

namespace Tree

/-- The levels of a tree: the tree itself, and those of the maps in it. -/
inductive Level : Tree → Tree → Prop where
  | self {tree : Tree} : Level tree tree
  | inside {tree sub level : Tree} {key : Yaml} (pair : (key, .mapping sub) ∈ tree)
      (below : Level sub level) : Level tree level

/-- A level whose keys are distinct texts, as in every map of a document, each of which is a directive
or a path. -/
structure RegularKeys (level : Tree) : Prop where
  distinct : (level.map fun pair => pair.1.text?).Nodup
  spelled : ∀ key value, (key, value) ∈ level → ∃ name, key = .string name ∧
    (Segment.IsDirective name ∨ ∃ marker? fields, Segment.Spells name marker? fields)

def Regular (tree : Tree) : Prop :=
  ∀ level, Level tree level → RegularKeys level

def valueAt? (level : Tree) (key : String) : Option Yaml :=
  (level.find? fun pair => pair.1.text? = some key).map Prod.snd

def expressionAt? (level : Tree) (directive : String) : Option String :=
  (valueAt? level directive).bind fun value => value.text?.map Text.trim

/-- The guards of a level: those it inherits, and its own. -/
def guards (inherited : List String) (level : Tree) : List String :=
  inherited ++ (expressionAt? level Segment.securityKey).toList

/-- The guards of a path of a level, by the marker before it. -/
def guardsAt? (inherited : List String) (level : Tree) : Option String → Option (List String)
  | none => some (guards inherited level)
  | some marker =>
    (expressionAt? level (Segment.securityKey ++ marker)).map fun expression =>
      guards inherited level ++ [expression]

end Tree

/-- The guards that a field's own value adds to the field. -/
def ownGuards : Yaml → List String
  | .mapping level => (Tree.expressionAt? level Segment.securityKey).toList
  | _ => []

/-- The condition of some guards, outermost first. -/
def joined (guards : List String) : Option String :=
  guards.foldl (fun inherited expression => some (conjoin inherited expression)) none

/-- The fields that a path reaches from a type, up to the first one that leads to no known type; each
with whether it ends the path. -/
def Resolver.visits (resolver : Resolver) : String → List String → List (FieldRef × Bool)
  | _, [] => []
  | type, field :: rest =>
    (⟨type, field⟩, rest.isEmpty) ::
      match resolver.fieldType? type field with
      | some next => resolver.visits next rest
      | none => []

/-- A field occurs in a tree on a type: it is reached by a path of the tree, or it occurs in the map
of the field that ends a path.  The guards are those of the occurrence, with the inherited ones. -/
inductive Occurs (resolver : Resolver) (ref : FieldRef) (all : List String) :
    String → List String → Tree → Prop where
  | here {type : String} {inherited : List String} {tree : Tree} {name : String} {value : Yaml}
      {marker? : Option String} {fields above : List String} {last : Bool}
      (pair : (.string name, value) ∈ tree) (spelled : Segment.Spells name marker? fields)
      (guarded : tree.guardsAt? inherited marker? = some above)
      (visited : (ref, last) ∈ resolver.visits type fields)
      (complete : all = if last then above ++ ownGuards value else above) :
      Occurs resolver ref all type inherited tree
  | inside {type next : String} {inherited : List String} {tree sub : Tree} {name : String}
      {marker? : Option String} {fields above : List String} {outer : FieldRef}
      (pair : (.string name, .mapping sub) ∈ tree) (spelled : Segment.Spells name marker? fields)
      (guarded : tree.guardsAt? inherited marker? = some above)
      (visited : (outer, true) ∈ resolver.visits type fields)
      (leads : resolver.fieldType? outer.owner outer.field = some next)
      (inner : Occurs resolver ref all next above sub) :
      Occurs resolver ref all type inherited tree

namespace Definition

def trees (definition : Definition) (type group : String) : List Tree :=
  ((definition.types.get? type).bind (·.get? group)).getD []

def Regular (definition : Definition) : Prop :=
  ∀ type group, ∀ tree ∈ definition.trees type group, Tree.Regular tree

def Occurs (definition : Definition) (resolver : Resolver) (type group : String) (ref : FieldRef)
    (guards : List String) : Prop :=
  ∃ tree ∈ definition.trees type group, Visibility.Occurs resolver ref guards type [] tree

end Definition

theorem Resolver.visits_singleton (resolver : Resolver) (type field : String) :
    resolver.visits type [field] = [(⟨type, field⟩, true)] := by
  cases leads : resolver.fieldType? type field <;> simp [visits, leads]

namespace Segment

theorem not_dot_of_mem_path {key segment : String} (found : segment ∈ path key) :
    '.' ∉ segment.toList := by
  obtain ⟨part, split, rfl⟩ := List.mem_map.mp found
  intro present
  rw [String.toList_ofList] at present
  have apart := Text.not_sep_of_mem_splitAt split '.' present
  simp at apart

theorem path_of_not_dot {key : String} (absent : '.' ∉ key.toList) : path key = [key] := by
  have alone : Text.splitAt (· = '.') key.toList = [key.toList] := by
    refine Text.splitAt_of_forall_not fun c present => ?_
    have differ : c ≠ '.' := fun same => absent (same ▸ present)
    simp [differ]
  rw [path, alone, List.map_singleton, String.ofList_toList]

theorem isHoisted_iff {key : String} :
    isHoisted key = true ↔ key = securityKey ∨
      Text.startsWith namedSecurityLead key = true ∧ '.' ∉ key.toList := by
  simp [isHoisted]

theorem markerOf_append (marker : String) : markerOf (securityKey ++ marker) = marker := by
  have counted : securityKey.length = securityKey.toList.length := String.length_toList.symm
  rw [markerOf, String.toList_append, counted, List.drop_left, String.ofList_toList]

theorem append_markerOf {key : String} (named : Text.startsWith namedSecurityLead key = true) :
    securityKey ++ markerOf key = key := by
  obtain ⟨rest, spelled⟩ := Text.startsWith_iff.mp named
  have split : key = securityKey ++ String.ofList ('_' :: rest) := by
    rw [← String.toList_inj, spelled, String.toList_append, String.toList_ofList]
    rfl
  rw [split, markerOf_append]

theorem classify_eq_namedSecurity_iff {segment marker : String} :
    classify segment = .namedSecurity marker ↔
      Text.startsWith namedSecurityLead segment = true ∧ markerOf segment = marker := by
  unfold classify
  split
  · next starts => simp [starts]
  · next other =>
    refine iff_of_false (fun classified => ?_) fun both => other both.1
    repeat' split at classified
    all_goals cases classified

theorem classify_of_isHoisted {key : String} (hoisted : isHoisted key = true)
    (named : key ≠ securityKey) :
    key ∈ path key ∧ classify key = .namedSecurity (markerOf key) := by
  rcases isHoisted_iff.mp hoisted with bare | ⟨starts, absent⟩
  · exact absurd bare named
  · rw [path_of_not_dot absent]
    exact ⟨List.mem_singleton_self key, classify_eq_namedSecurity_iff.mpr ⟨starts, rfl⟩⟩

theorem eq_of_classify_security {segment : String} (classified : classify segment = .security) :
    segment = securityKey := by
  unfold classify at classified
  repeat' split at classified
  all_goals first | contradiction | assumption

theorem isMarker_of_classify {segment marker : String}
    (classified : classify segment = .marker marker) : IsMarker segment := by
  have same : segment = marker := by
    unfold classify at classified
    repeat' split at classified
    all_goals first | contradiction | exact Segment.marker.inj classified
  rw [IsMarker, classified, same]

theorem isField_of_classify {segment name : String}
    (classified : classify segment = .field name) : IsField segment := by
  have same : segment = name := by
    unfold classify at classified
    repeat' split at classified
    all_goals first | contradiction | exact Segment.field.inj classified
  rw [IsField, classified, same]

theorem IsMarker.startsWith {marker : String} (marked : IsMarker marker) :
    Text.startsWith "_" marker = true := by
  unfold IsMarker classify at marked
  repeat' split at marked
  all_goals first | contradiction | assumption

theorem IsMarker.isHoisted {marker : String} (marked : IsMarker marker)
    (absent : '.' ∉ marker.toList) :
    isHoisted (securityKey ++ marker) = true ∧ securityKey ++ marker ≠ securityKey := by
  obtain ⟨rest, spelled⟩ := Text.startsWith_iff.mp marked.startsWith
  refine ⟨isHoisted_iff.mpr (.inr ⟨Text.startsWith_iff.mpr ⟨rest, ?_⟩, ?_⟩), ?_⟩
  · rw [String.toList_append, spelled]
    rfl
  · rw [String.toList_append, List.mem_append]
    rintro (inKey | inMarker)
    · exact absurd inKey (by decide)
    · exact absent inMarker
  · intro same
    have none := congrArg markerOf same
    rw [markerOf_append] at none
    rw [none] at spelled
    have empty : (markerOf securityKey).toList = [] := by decide +kernel
    rw [empty] at spelled
    cases spelled

theorem isDirective_of_isHoisted {key : String} (hoisted : isHoisted key = true) :
    IsDirective key := by
  rcases isHoisted_iff.mp hoisted with rfl | ⟨named, absent⟩
  · decide +kernel
  · have classified : classify key = .namedSecurity (markerOf key) := by rw [classify, if_pos named]
    refine ⟨path_of_not_dot absent, fun marked => ?_, fun plain => ?_⟩
    · rw [IsMarker, classified] at marked
      cases marked
    · rw [IsField, classified] at plain
      cases plain

theorem not_isHoisted_of_mem_path {key segment : String} (present : segment ∈ path key)
    (acts : IsMarker segment ∨ IsField segment) : isHoisted key = false := by
  rw [Bool.eq_false_iff]
  intro hoisted
  obtain ⟨alone, notMarker, notField⟩ := isDirective_of_isHoisted hoisted
  rw [alone] at present
  cases List.mem_singleton.mp present
  exact acts.elim notMarker notField

theorem Spells.not_isHoisted {key : String} {marker? : Option String} {fields : List String}
    (spelled : Spells key marker? fields) : isHoisted key = false := by
  obtain ⟨field, present⟩ := List.exists_mem_of_ne_nil fields spelled.named
  have inPath : field ∈ Segment.path key := by
    rw [spelled.path]
    exact List.mem_append_right _ present
  exact not_isHoisted_of_mem_path inPath (.inr (spelled.plain field present))

theorem IsDirective.classify_of_not_isHoisted {key : String} (directive : IsDirective key)
    (free : Segment.isHoisted key = false) :
    classify key = .maxDepth ∨ classify key = .serializedName ∨ classify key = .ignore := by
  obtain ⟨alone, notMarker, notField⟩ := directive
  have absent : '.' ∉ key.toList := not_dot_of_mem_path (by rw [alone]; exact List.mem_cons_self)
  rw [Bool.eq_false_iff, Ne, isHoisted_iff, not_or] at free
  have notNamed : ¬ Text.startsWith namedSecurityLead key = true := fun named =>
    free.2 ⟨named, absent⟩
  unfold IsMarker at notMarker
  unfold IsField at notField
  unfold classify at notMarker notField ⊢
  rw [if_neg notNamed, if_neg free.1] at *
  split
  · exact .inl rfl
  · split
    · exact .inr (.inl rfl)
    · split
      · exact .inr (.inr rfl)
      · simp_all

end Segment

namespace Tree

/-- Induction along the maps in a tree. -/
theorem induct {motive : Tree → Prop}
    (step : ∀ tree : Tree, (∀ key sub, (key, .mapping sub) ∈ tree → motive sub) → motive tree)
    (tree : Tree) : motive tree := by
  refine step tree fun key sub pair => ?_
  have smaller : sizeOf sub < sizeOf tree := by
    have inside := List.sizeOf_lt_of_mem pair
    simp only [Prod.mk.sizeOf_spec, Yaml.mapping.sizeOf_spec] at inside
    omega
  exact induct step sub
termination_by sizeOf tree

theorem valueAt?_cons (key value : Yaml) (rest : Tree) (name : String) :
    valueAt? ((key, value) :: rest) name =
      if key.text? = some name then some value else valueAt? rest name := by
  by_cases here : key.text? = some name
  · simp [valueAt?, here]
  · simp [valueAt?, here]

theorem valueAt?_eq_none_iff {level : Tree} {name : String} :
    valueAt? level name = none ↔ ∀ pair ∈ level, pair.1.text? ≠ some name := by
  simp [valueAt?]

theorem exists_of_expressionAt? {level : Tree} {directive expression : String}
    (found : expressionAt? level directive = some expression) :
    ∃ pair ∈ level, pair.2.text?.map Text.trim = some expression := by
  obtain ⟨value, present, read⟩ := Option.bind_eq_some_iff.mp found
  obtain ⟨pair, first, rfl⟩ := Option.map_eq_some_iff.mp present
  exact ⟨pair, List.mem_of_find?_eq_some first, read⟩

theorem Regular.keys {tree : Tree} (regular : Regular tree) : RegularKeys tree :=
  regular tree .self

theorem Regular.inside {tree sub : Tree} {key : Yaml} (regular : Regular tree)
    (pair : (key, .mapping sub) ∈ tree) : Regular sub :=
  fun level below => regular level (.inside pair below)

end Tree

theorem Definition.mem_trees_iff {definition : Definition} {type group : String} {tree : Tree} :
    tree ∈ definition.trees type group ↔
      ∃ groups declared, (type, groups) ∈ definition.types.entries ∧
        (group, declared) ∈ groups.entries ∧ tree ∈ declared := by
  simp only [trees, Dict.mem_entries_iff]
  cases definition.types.get? type with
  | none => simp
  | some groups =>
    rw [Option.bind_some]
    cases found : groups.get? group with
    | none => simp [found]
    | some declared => simp [found]

theorem joined_append_singleton (guards : List String) (expression : String) :
    joined (guards ++ [expression]) = some (conjoin (joined guards) expression) := by
  simp [joined]

def Tree.Gives (tree : Tree) (expression : String) : Prop :=
  ∃ level directive, Tree.Level tree level ∧ Segment.isHoisted directive = true ∧
    Tree.expressionAt? level directive = some expression

theorem Tree.Gives.inside {tree sub : Tree} {key : Yaml} {expression : String}
    (pair : (key, .mapping sub) ∈ tree) (gives : Tree.Gives sub expression) :
    tree.Gives expression := by
  obtain ⟨level, directive, below, hoisted, found⟩ := gives
  exact ⟨level, directive, .inside pair below, hoisted, found⟩

private theorem gives_securityKey {tree : Tree} {expression : String}
    (given : expression ∈ (tree.expressionAt? Segment.securityKey).toList) :
    tree.Gives expression := by
  have hoisted : Segment.isHoisted Segment.securityKey = true := by decide +kernel
  exact ⟨tree, _, .self, hoisted, Option.mem_toList.mp given⟩

theorem inherited_or_gives_of_guardsAt? {tree : Tree} {inherited above fields : List String}
    {name expression : String} {marker? : Option String}
    (spelled : Segment.Spells name marker? fields)
    (guarded : tree.guardsAt? inherited marker? = some above) (given : expression ∈ above) :
    expression ∈ inherited ∨ tree.Gives expression := by
  have ofLevel (given : expression ∈ tree.guards inherited) :
      expression ∈ inherited ∨ tree.Gives expression := by
    rcases List.mem_append.mp given with before | own
    · exact .inl before
    · exact .inr (gives_securityKey own)
  cases marker? with
  | none =>
    cases guarded
    exact ofLevel given
  | some marker =>
    obtain ⟨own, found, rfl⟩ := Option.map_eq_some_iff.mp guarded
    rcases List.mem_append.mp given with before | last
    · exact ofLevel before
    · cases List.mem_singleton.mp last
      have inPath : marker ∈ Segment.path name := by
        rw [spelled.path]
        exact List.mem_append_left _ (by simp)
      have hoisted := (spelled.marked marker rfl).isHoisted (Segment.not_dot_of_mem_path inPath)
      exact .inr ⟨tree, _, .self, hoisted.1, found⟩

/-- Every guard of an occurrence is inherited, or given by a level of the tree. -/
theorem Occurs.inherited_or_gives {resolver : Resolver} {ref : FieldRef} {all inherited : List String}
    {type expression : String} {tree : Tree}
    (occurs : Occurs resolver ref all type inherited tree) (given : expression ∈ all) :
    expression ∈ inherited ∨ tree.Gives expression := by
  induction occurs with
  | @here _ inherited tree _ value _ _ above last pair spelled guarded _ complete =>
    have ofPath : expression ∈ above → expression ∈ inherited ∨ tree.Gives expression :=
      inherited_or_gives_of_guardsAt? spelled guarded
    subst complete
    split at given
    · rcases List.mem_append.mp given with before | own
      · exact ofPath before
      · cases value with
        | mapping sub => exact .inr ((gives_securityKey own).inside pair)
        | _ => cases own
    · exact ofPath given
  | inside pair spelled guarded _ _ _ ih =>
    rcases ih with before | deeper
    · exact inherited_or_gives_of_guardsAt? spelled guarded before
    · exact .inr (deeper.inside pair)

/-- A book whose publisher is guarded as a whole, and one field of it once more. -/
def guardedTree : Tree :=
  [(.string "publisher", .mapping
    [(.string "_security", .string "is_granted('STAFF')"),
      (.string "_security_admin", .string "is_granted('ADMIN')"),
      (.string "_admin.contact", .null)])]

def guardedBooks : Definition :=
  Definition.empty.push "Book" "item.normalization.get" guardedTree

theorem eq_of_mem_trees_guardedBooks {type group : String} {tree : Tree}
    (declared : tree ∈ guardedBooks.trees type group) :
    type = "Book" ∧ group = "item.normalization.get" ∧ tree = guardedTree := by
  obtain ⟨groups, trees, hasType, hasGroup, hasTree⟩ := Definition.mem_trees_iff.mp declared
  cases List.mem_singleton.mp hasType
  cases List.mem_singleton.mp hasGroup
  exact ⟨rfl, rfl, List.mem_singleton.mp hasTree⟩

theorem regular_guardedBooks : guardedBooks.Regular := by
  intro type group tree declared level below
  obtain ⟨_, _, rfl⟩ := eq_of_mem_trees_guardedBooks declared
  cases below with
  | self =>
    refine ⟨by decide +kernel, fun key value pair => ?_⟩
    cases List.mem_singleton.mp pair
    exact ⟨_, rfl, .inr ⟨none, ["publisher"], by decide +kernel⟩⟩
  | inside pair below =>
    cases List.mem_singleton.mp pair
    cases below with
    | self =>
      refine ⟨by decide +kernel, fun key value pair => ?_⟩
      simp only [List.mem_cons, List.not_mem_nil, or_false, Prod.mk.injEq] at pair
      rcases pair with ⟨rfl, _⟩ | ⟨rfl, _⟩ | ⟨rfl, _⟩
      · exact ⟨_, rfl, .inl (by decide +kernel)⟩
      · exact ⟨_, rfl, .inl (by decide +kernel)⟩
      · exact ⟨_, rfl, .inr ⟨some "_admin", ["contact"], by decide +kernel⟩⟩
    | inside pair => simp at pair

def bookResolver : Resolver where
  introspector :=
    { accessor := fun _ _ => none
      property := fun owner field =>
        if owner = "Book" ∧ field = "publisher" then some { type := some "Publisher" } else none
      typeExists := fun type => type = "Publisher" }
  separator := "\\"
  collections := []

theorem occurs_contact :
    guardedBooks.Occurs bookResolver "Book" "item.normalization.get" ⟨"Publisher", "contact"⟩
      ["is_granted('STAFF')", "is_granted('ADMIN')"] := by
  refine ⟨guardedTree, List.mem_singleton_self _, ?_⟩
  have outer : Segment.Spells "publisher" none ["publisher"] := by decide +kernel
  have inner : Segment.Spells "_admin.contact" (some "_admin") ["contact"] := by decide +kernel
  have unguarded : Tree.guardsAt? [] guardedTree none = some [] := by decide +kernel
  have guarded : Tree.guardsAt? []
      [(.string "_security", .string "is_granted('STAFF')"),
        (.string "_security_admin", .string "is_granted('ADMIN')"),
        (.string "_admin.contact", .null)] (some "_admin") =
      some ["is_granted('STAFF')", "is_granted('ADMIN')"] := by decide +kernel
  have leads : bookResolver.fieldType? "Book" "publisher" = some "Publisher" := by decide +kernel
  refine .inside List.mem_cons_self outer unguarded List.mem_cons_self leads ?_
  exact .here (.tail _ (.tail _ List.mem_cons_self)) inner guarded List.mem_cons_self rfl

end Visibility
