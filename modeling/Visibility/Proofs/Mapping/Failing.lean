import Visibility.Proofs.Mapping.Declared

set_option autoImplicit false
set_option relaxedAutoImplicit false

/-!
Why the walk of a definition fails.

Every error of a walk names the type and the group under walk, except for a tree that holds nothing,
which is refused before it is walked.
-/

namespace Visibility

section FailsOnly

variable {ε α β : Type} {blames : ε → Prop} {outcome : Except ε α}

/-- Whether an outcome, if it is an error, is one of a kind. -/
def FailsOnly (blames : ε → Prop) (outcome : Except ε α) : Prop :=
  ∀ error, outcome = .error error → blames error

theorem FailsOnly.ok (a : α) : FailsOnly blames (.ok a : Except ε α) :=
  nofun

theorem FailsOnly.error {error : ε} (blamed : blames error) :
    FailsOnly blames (.error error : Except ε α) := by
  rintro _ ⟨⟩
  exact blamed

theorem FailsOnly.bind {next : α → Except ε β} (first : FailsOnly blames outcome)
    (then_ : ∀ a, FailsOnly blames (next a)) : FailsOnly blames (outcome >>= next) := by
  intro error failed
  cases came : outcome with
  | error early =>
    rw [came] at failed
    cases failed
    exact first _ came
  | ok a =>
    rw [came] at failed
    exact then_ a error failed

theorem FailsOnly.map {f : α → β} (first : FailsOnly blames outcome) :
    FailsOnly blames (outcome.map f) := by
  intro error failed
  cases came : outcome with
  | error early =>
    rw [came] at failed
    cases failed
    exact first _ came
  | ok a =>
    rw [came] at failed
    contradiction

end FailsOnly

inductive Scope.Blames (scope : Scope) : MappingError → Prop where
  | malformed (what : Malformation) : scope.Blames (.malformed scope.origin what)
  | missingParent (directive : String) :
      scope.Blames (.missingParent directive scope.root scope.group)
  | unknownMarker (marker : String) :
      scope.Blames (.unknownSecurityPrefix marker scope.root scope.group)

namespace Scope

variable {scope : Scope}

theorem failsOnly_malformed {α : Type} (what : Malformation) :
    FailsOnly scope.Blames (scope.malformed what : Except MappingError α) :=
  .error (.malformed what)

theorem failsOnly_keyName (key : Yaml) : FailsOnly scope.Blames (scope.keyName key) := by
  unfold keyName
  split
  · exact .ok _
  · exact failsOnly_malformed _

theorem failsOnly_expression (directive : String) (value : Yaml) :
    FailsOnly scope.Blames (scope.expression directive value) := by
  unfold expression
  split
  · split
    · exact failsOnly_malformed _
    · exact .ok _
  · exact failsOnly_malformed _

theorem failsOnly_enclosing (parent : Option FieldRef) (directive : String) :
    FailsOnly scope.Blames (scope.enclosing parent directive) := by
  unfold enclosing
  split
  · exact .ok _
  · exact .error (.missingParent directive)

theorem failsOnly_ofMarker (conditions : Conditions) (marker? : Option String) :
    FailsOnly scope.Blames (conditions.ofMarker scope marker?) := by
  unfold Conditions.ofMarker
  split
  · exact .ok _
  · split
    · exact .ok _
    · exact .error (.unknownMarker _)

end Scope

namespace Walk

variable {resolver : Resolver} {scope : Scope}

theorem failsOnly_security (parent : Option FieldRef) (value : Yaml) (conditions : Conditions) :
    FailsOnly scope.Blames (security scope parent value conditions) := by
  refine .bind (Scope.failsOnly_expression _ _) fun expression => ?_
  exact .bind (Scope.failsOnly_enclosing _ _) fun ref => .ok _

theorem failsOnly_ownSecurity (parent : Option FieldRef) (conditions : Conditions) (tree : Tree) :
    FailsOnly scope.Blames (ownSecurity scope parent conditions tree) := by
  induction tree generalizing conditions with
  | nil => exact .ok _
  | cons pair rest ih =>
    refine .bind (Scope.failsOnly_keyName _) fun name => ?_
    split
    · refine .bind (failsOnly_security _ _ _) fun own => ?_
      exact .bind (ih _) fun more => .ok _
    · exact ih conditions

theorem failsOnly_namedSecurity (conditions : Conditions) (tree : Tree) :
    FailsOnly scope.Blames (namedSecurity scope conditions tree) := by
  induction tree generalizing conditions with
  | nil => exact .ok _
  | cons pair rest ih =>
    refine .bind (Scope.failsOnly_keyName _) fun name => ?_
    split
    · exact .bind (Scope.failsOnly_expression _ _) fun expression => ih _
    · exact ih conditions

theorem failsOnly_hoisted (parent : Option FieldRef) (inherited : Option String) (tree : Tree) :
    FailsOnly scope.Blames (hoisted scope parent inherited tree) := by
  refine .bind (failsOnly_ownSecurity _ _ _) fun own => ?_
  exact .bind (failsOnly_namedSecurity _ _) fun conditions => .ok _

/-- Whether the walk below an attribute fails only for errors that name the type and the group. -/
def BelowFailsOnly (scope : Scope) (below : Below) : Prop :=
  ∀ owner condition ref, FailsOnly scope.Blames (below owner condition ref)

theorem failsOnly_descend {key : String} {value : Yaml} {below : Below}
    (deeper : BelowFailsOnly scope below) (owner condition : Option String) (ref : FieldRef) :
    FailsOnly scope.Blames (descend scope key value below owner condition ref) := by
  unfold descend
  split
  · exact .ok _
  · split
    · exact .ok _
    · exact deeper owner condition ref
  · exact Scope.failsOnly_malformed _

theorem failsOnly_follow {parent : Option FieldRef} {key : String} {value : Yaml} {below : Below}
    (deeper : BelowFailsOnly scope below) (segments : List String)
    (owner marker? : Option String) (conditions : Conditions) :
    FailsOnly scope.Blames
      (follow resolver scope parent key value below segments owner marker? conditions) := by
  induction segments generalizing owner marker? conditions with
  | nil => exact .ok _
  | cons segment rest ih =>
    -- a limit takes its value, then the enclosing attribute, and the rest of the path is followed
    have setting (step : FieldRef → Step) : FailsOnly scope.Blames (do
        let ref ← scope.enclosing parent segment
        let more ← follow resolver scope parent key value below rest owner marker? conditions
        return (more.1, step ref :: more.2)) := by
      refine .bind (Scope.failsOnly_enclosing _ _) fun ref => ?_
      exact .bind (ih owner marker? conditions) fun more => .ok _
    cases classified : Segment.classify segment with
    | namedSecurity defined =>
      rw [follow, classified]
      refine .bind (Scope.failsOnly_expression _ _) fun expression => ?_
      exact ih owner marker? _
    | security =>
      rw [follow, classified]
      refine .bind (failsOnly_security _ _ _) fun own => ?_
      exact .bind (ih owner marker? _) fun more => .ok _
    | maxDepth =>
      rw [follow, classified]
      dsimp only
      split
      · split
        · exact .bind (.ok _) fun depth => setting (.maxDepth · depth)
        · exact .bind (Scope.failsOnly_malformed _) fun depth => setting (.maxDepth · depth)
      · exact .bind (Scope.failsOnly_malformed _) fun depth => setting (.maxDepth · depth)
    | serializedName =>
      rw [follow, classified]
      dsimp only
      split
      · exact .bind (.ok _) fun name => setting (.serializedName · name)
      · exact .bind (Scope.failsOnly_malformed _) fun name => setting (.serializedName · name)
    | ignore =>
      rw [follow, classified]
      dsimp only
      split
      · exact .bind (.ok _) fun flag => setting (.ignore · flag)
      · exact .bind (Scope.failsOnly_malformed _) fun flag => setting (.ignore · flag)
    | marker used =>
      rw [follow, classified]
      exact ih owner (some used) conditions
    | field name =>
      rw [follow, classified]
      cases owner with
      | none => exact .ok _
      | some type =>
        refine .bind (Scope.failsOnly_ofMarker _ _) fun condition => ?_
        dsimp only
        split
        · exact .bind (failsOnly_descend deeper _ _ _) fun more => .ok _
        · split
          · exact .bind (ih _ marker? conditions) fun more => .ok _
          · exact .ok _

theorem failsOnly_key {owner : Option String} {parent : Option FieldRef} {conditions : Conditions}
    {name value : Yaml} {below : Below} (deeper : BelowFailsOnly scope below) :
    FailsOnly scope.Blames (key resolver scope owner parent conditions name value below) := by
  refine .bind (Scope.failsOnly_keyName _) fun text => ?_
  split
  · exact .ok _
  · exact failsOnly_follow deeper _ _ _ _

theorem failsOnly_level (tree : Tree) (owner : Option String) (parent : Option FieldRef)
    (inherited : Option String) :
    FailsOnly scope.Blames (level resolver scope owner parent inherited tree) := by
  induction tree using Tree.induct generalizing owner parent inherited with
  | step tree deeper =>
    have below (value : Yaml) (held : ∀ sub, value = .mapping sub → ∃ key, (key, value) ∈ tree) :
        BelowFailsOnly scope (inside resolver scope value) := by
      intro owner condition ref
      cases value with
      | mapping sub =>
        obtain ⟨key, pair⟩ := held sub rfl
        rw [inside_mapping]
        exact deeper key sub pair owner (some ref) condition
      | _ => exact .ok _
    have keysOf (rest : Tree) (present : ∀ pair ∈ rest, pair ∈ tree) (conditions : Conditions) :
        FailsOnly scope.Blames (keys resolver scope rest owner parent conditions) := by
      induction rest generalizing conditions with
      | nil => exact .ok _
      | cons pair rest ih =>
        have here : pair ∈ tree := present pair List.mem_cons_self
        have later := fun other inRest => present other (List.mem_cons_of_mem _ inRest)
        refine .bind (failsOnly_key (below pair.2 fun _ _ => ⟨pair.1, here⟩)) fun first => ?_
        exact .bind (ih later first.1) fun more => .ok _
    refine .bind (failsOnly_hoisted _ _ _) fun own => ?_
    exact .bind (keysOf tree (fun _ present => present) own.1) fun more => .ok _

theorem failsOnly_collect {α : Type} {f : α → Except MappingError (List Step)} {parts : List α}
    {blames : MappingError → Prop} (each : ∀ part ∈ parts, FailsOnly blames (f part)) :
    FailsOnly blames (collect f parts) := by
  induction parts with
  | nil => exact .ok _
  | cons part rest ih =>
    obtain ⟨here, later⟩ := List.forall_mem_cons.mp each
    refine .bind here fun own => ?_
    exact .bind (ih later) fun more => .ok _

end Walk

namespace Definition

variable {definition : Definition}

def Filled (definition : Definition) : Prop :=
  ∀ type group, ∀ tree ∈ definition.trees type group, tree ≠ []

/-- Where the tables of a definition without empty trees cannot be built, the error names a type and a
group that it declares. -/
theorem Filled.failsOnly_tables (filled : definition.Filled) (resolver : Resolver) :
    FailsOnly (fun error => ∃ scope ∈ definition.scopes, scope.Blames error)
      (definition.tables resolver) := by
  refine .map ?_
  rw [steps_eq_collect]
  refine Walk.failsOnly_collect fun part present => ?_
  cases part with
  | table type => exact .ok _
  | tree scope tree =>
    have declared : tree ∈ definition.trees scope.root scope.group :=
      tree_mem_parts_iff.mp present
    have walked : scope ∈ definition.scopes := by
      by_contra undeclared
      rw [trees_eq_nil undeclared] at declared
      contradiction
    have nonempty : ¬ tree.isEmpty = true := fun empty =>
      filled _ _ tree declared (List.isEmpty_iff.mp empty)
    intro error failed
    rw [Walk.Part.steps, if_neg nonempty] at failed
    exact ⟨scope, walked, Walk.failsOnly_level tree _ _ _ error failed⟩

end Definition

end Visibility
