import Mathlib.Data.List.Forall2
import Visibility.Proofs.Mapping.Walking

set_option autoImplicit false
set_option relaxedAutoImplicit false

/-!
Walks of trees that differ in some of their levels.

Two walks agree where both fail, or both succeed with steps that are related.  Where one level is
rewritten to another and the walks of the two agree, the walks of all trees around them agree, and so do
the walks of definitions that are made of such trees.
-/

namespace Visibility

/-- Outcomes that are both failures, for whatever reasons, or both come with related values. -/
inductive Except.Agree {ε α : Type} (related : α → α → Prop) :
    Except ε α → Except ε α → Prop where
  | failed (error other : ε) : Except.Agree related (.error error) (.error other)
  | came {a b : α} (alike : related a b) : Except.Agree related (.ok a) (.ok b)

namespace Except.Agree

variable {ε α β : Type} {related : α → α → Prop} {first second third : Except ε α}

theorem refl (reflexive : ∀ a, related a a) (outcome : Except ε α) :
    Agree related outcome outcome := by
  cases outcome with
  | error error => exact .failed error error
  | ok a => exact .came (reflexive a)

theorem trans (transitive : ∀ a b c, related a b → related b c → related a c)
    (agree : Agree related first second) (next : Agree related second third) :
    Agree related first third := by
  cases agree with
  | failed =>
    cases next
    exact .failed _ _
  | came alike =>
    cases next with
    | came alikeNext => exact .came (transitive _ _ _ alike alikeNext)

theorem bind {relatedAfter : β → β → Prop} {next other : α → Except ε β}
    (agree : Agree related first second)
    (onward : ∀ a b, related a b → Agree relatedAfter (next a) (other b)) :
    Agree relatedAfter (first >>= next) (second >>= other) := by
  cases agree with
  | failed => exact .failed _ _
  | came alike => exact onward _ _ alike

theorem same_bind {relatedAfter : β → β → Prop} (outcome : Except ε α) {next other : α → Except ε β}
    (onward : ∀ a, Agree relatedAfter (next a) (other a)) :
    Agree relatedAfter (outcome >>= next) (outcome >>= other) := by
  cases outcome with
  | error error => exact .failed error error
  | ok a => exact onward a

theorem map {relatedAfter : β → β → Prop} {f g : α → β} (agree : Agree related first second)
    (onward : ∀ a b, related a b → relatedAfter (f a) (g b)) :
    Agree relatedAfter (first.map f) (second.map g) := by
  cases agree with
  | failed => exact .failed _ _
  | came alike => exact .came (onward _ _ alike)

theorem exists_ok_iff (agree : Agree related first second) :
    (∃ a, first = .ok a) ↔ ∃ b, second = .ok b := by
  cases agree with
  | failed => simp
  | came => simp

theorem of_ok (agree : Agree related first second) {a b : α} (came : first = .ok a)
    (cameToo : second = .ok b) : related a b := by
  subst came cameToo
  cases agree with
  | came alike => exact alike

end Except.Agree

/-- Conditions under which every look-up gives the same. -/
structure Conditions.Same (conditions other : Conditions) : Prop where
  inherited : conditions.inherited = other.inherited
  named : ∀ marker, conditions.named.get? marker = other.named.get? marker

namespace Conditions.Same

variable {conditions other last : Conditions}

theorem refl (conditions : Conditions) : conditions.Same conditions :=
  ⟨rfl, fun _ => rfl⟩

theorem trans (same : conditions.Same other) (next : other.Same last) : conditions.Same last :=
  ⟨same.inherited.trans next.inherited, fun marker => (same.named marker).trans (next.named marker)⟩

theorem define (same : conditions.Same other) (marker expression : String) :
    (conditions.define marker expression).Same (other.define marker expression) := by
  refine ⟨same.inherited, fun asked => ?_⟩
  simp only [Conditions.define, Dict.get?_insert, same.inherited, same.named]

theorem ofMarker (same : conditions.Same other) (scope : Scope) (marker? : Option String) :
    conditions.ofMarker scope marker? = other.ofMarker scope marker? := by
  cases marker? with
  | none => simp only [Conditions.ofMarker, same.inherited]
  | some marker => simp only [Conditions.ofMarker, same.named]

end Conditions.Same

/-- Values that every directive takes in the same way. -/
structure Yaml.Alike (value other : Yaml) : Prop where
  text : value.text? = other.text?
  nat : value.nat? = other.nat?
  bool : value.bool? = other.bool?
  kind : value.kind = other.kind
  guards : Walk.guardsItself value = Walk.guardsItself other

theorem Yaml.Alike.refl (value : Yaml) : value.Alike value :=
  ⟨rfl, rfl, rfl, rfl, rfl⟩

theorem Yaml.Alike.mapping {sub other : Tree}
    (guards : Walk.guardsItself (.mapping sub) = Walk.guardsItself (.mapping other)) :
    Yaml.Alike (.mapping sub) (.mapping other) :=
  ⟨rfl, rfl, rfl, rfl, guards⟩

theorem Yaml.Alike.expression {value other : Yaml} (alike : value.Alike other) (scope : Scope)
    (directive : String) : scope.expression directive value = scope.expression directive other := by
  simp only [Scope.expression, alike.text, alike.kind]

namespace Walk

/-- Relations of steps that hold of whole lists where they hold of their parts. -/
structure Congruent (related : List Step → List Step → Prop) : Prop where
  refl : ∀ steps, related steps steps
  trans : ∀ first second third, related first second → related second third → related first third
  append : ∀ {first second more later}, related first second → related more later →
    related (first ++ more) (second ++ later)

theorem congruent_eq : Congruent (· = ·) where
  refl _ := rfl
  trans _ _ _ := Eq.trans
  append := by
    rintro _ _ _ _ rfl rfl
    rfl

theorem congruent_perm : Congruent List.Perm where
  refl := List.Perm.refl
  trans _ _ _ := List.Perm.trans
  append := List.Perm.append

def Related (related : List Step → List Step → Prop) (outcome other : Conditions × List Step) : Prop :=
  outcome.1.Same other.1 ∧ related outcome.2 other.2

variable {related : List Step → List Step → Prop} {resolver : Resolver} {scope : Scope}
  {parent : Option FieldRef} {conditions other : Conditions}

theorem security_agrees (congruent : Congruent related) {value again : Yaml}
    (alike : value.Alike again) (same : conditions.Same other) :
    Except.Agree (Related related) (security scope parent value conditions)
      (security scope parent again other) := by
  simp only [security, alike.expression, same.inherited]
  refine .same_bind _ fun expression => ?_
  refine .same_bind _ fun ref => ?_
  exact .came ⟨⟨rfl, same.named⟩, congruent.refl _⟩

theorem limit_agrees (congruent : Congruent related) (segment : String) (step : FieldRef → Step)
    {rest again : Except MappingError (Conditions × List Step)}
    (later : Except.Agree (Related related) rest again) :
    Except.Agree (Related related)
      (do
        let ref ← scope.enclosing parent segment
        let (conditions, more) ← rest
        return (conditions, step ref :: more))
      (do
        let ref ← scope.enclosing parent segment
        let (conditions, more) ← again
        return (conditions, step ref :: more)) := by
  refine .same_bind _ fun ref => ?_
  refine .bind later fun outcome outcome' agrees => ?_
  exact .came ⟨agrees.1, congruent.append (congruent.refl [step ref]) agrees.2⟩

theorem follow_agrees (congruent : Congruent related) {key name : String} {value again : Yaml}
    {below belowAgain : Below} (alike : value.Alike again)
    (deeper : ∀ owner condition ref,
      Except.Agree related (descend scope key value below owner condition ref)
        (descend scope name again belowAgain owner condition ref))
    (segments : List String) (owner marker? : Option String) (same : conditions.Same other) :
    Except.Agree (Related related)
      (follow resolver scope parent key value below segments owner marker? conditions)
      (follow resolver scope parent name again belowAgain segments owner marker? other) := by
  induction segments generalizing owner marker? conditions other with
  | nil => exact .came ⟨same, congruent.refl []⟩
  | cons segment rest ih =>
    cases classified : Segment.classify segment with
    | namedSecurity defined =>
      simp only [follow, classified, alike.expression]
      refine .same_bind _ fun expression => ?_
      exact ih owner marker? (same.define defined expression)
    | security =>
      simp only [follow, classified]
      refine .bind (security_agrees congruent alike same) fun own own' agrees => ?_
      refine .bind (ih owner marker? agrees.1) fun more more' agreesMore => ?_
      exact .came ⟨agreesMore.1, congruent.append agrees.2 agreesMore.2⟩
    | maxDepth =>
      simp only [follow, classified, alike.nat, alike.kind]
      cases again.nat? with
      | none => exact .failed _ _
      | some depth =>
        dsimp only
        split
        · exact limit_agrees congruent segment (.maxDepth · depth) (ih owner marker? same)
        · exact .failed _ _
    | serializedName =>
      simp only [follow, classified, alike.text, alike.kind]
      cases again.text? with
      | none => exact .failed _ _
      | some title =>
        exact limit_agrees congruent segment (.serializedName · title) (ih owner marker? same)
    | ignore =>
      simp only [follow, classified, alike.bool, alike.kind]
      cases again.bool? with
      | none => exact .failed _ _
      | some flag => exact limit_agrees congruent segment (.ignore · flag) (ih owner marker? same)
    | marker used =>
      simp only [follow, classified]
      exact ih owner (some used) same
    | field field =>
      simp only [follow, classified]
      cases owner with
      | none => exact .came ⟨same, congruent.refl []⟩
      | some type =>
        simp only [same.ofMarker, alike.guards]
        refine .same_bind _ fun condition => ?_
        split
        · refine .bind (deeper _ condition ⟨type, field⟩) fun more more' agrees => ?_
          exact .came ⟨same, congruent.append (congruent.refl _) agrees⟩
        · cases resolver.fieldType? type field with
          | none => exact .came ⟨same, congruent.refl _⟩
          | some next =>
            refine .bind (ih (some next) marker? same) fun more more' agrees => ?_
            exact .came ⟨agrees.1, congruent.append (congruent.refl _) agrees.2⟩

theorem key_agrees (congruent : Congruent related) {owner : Option String} {name value again : Yaml}
    {below belowAgain : Below} (alike : value.Alike again)
    (deeper : ∀ key owner condition ref,
      Except.Agree related (descend scope key value below owner condition ref)
        (descend scope key again belowAgain owner condition ref))
    (same : conditions.Same other) :
    Except.Agree (Related related)
      (key resolver scope owner parent conditions name value below)
      (key resolver scope owner parent other name again belowAgain) := by
  unfold key
  refine .same_bind _ fun text => ?_
  split
  · exact .came ⟨same, congruent.refl []⟩
  · exact follow_agrees congruent alike (deeper text) (Segment.path text) owner none same

theorem key_agrees_of_same (congruent : Congruent related) {owner : Option String}
    {name value : Yaml} {below : Below} (same : conditions.Same other) :
    Except.Agree (Related related)
      (key resolver scope owner parent conditions name value below)
      (key resolver scope owner parent other name value below) :=
  key_agrees congruent (.refl value) (fun _ _ _ _ => .refl congruent.refl _) same

theorem keys_agree_of_same (congruent : Congruent related) (owner : Option String) (tree : Tree)
    (same : conditions.Same other) :
    Except.Agree related (keys resolver scope tree owner parent conditions)
      (keys resolver scope tree owner parent other) := by
  induction tree generalizing conditions other with
  | nil => exact .came (congruent.refl [])
  | cons pair rest ih =>
    refine .bind (key_agrees_of_same congruent same) fun own own' agrees => ?_
    refine .bind (ih agrees.1) fun more more' agreesMore => ?_
    exact .came (congruent.append agrees.2 agreesMore)

theorem keys_agree_at (congruent : Congruent related) {owner : Option String}
    {pair again : Yaml × Yaml}
    (agrees : ∀ conditions, Except.Agree (Related related)
      (key resolver scope owner parent conditions pair.1 pair.2 (inside resolver scope pair.2))
      (key resolver scope owner parent conditions again.1 again.2 (inside resolver scope again.2)))
    (before after : Tree) (conditions : Conditions) :
    Except.Agree related (keys resolver scope (before ++ pair :: after) owner parent conditions)
      (keys resolver scope (before ++ again :: after) owner parent conditions) := by
  induction before generalizing conditions with
  | nil =>
    refine .bind (agrees conditions) fun own own' agreesOwn => ?_
    refine .bind (keys_agree_of_same congruent owner after agreesOwn.1) fun more more' agreesMore => ?_
    exact .came (congruent.append agreesOwn.2 agreesMore)
  | cons first before ih =>
    refine .same_bind _ fun own => ?_
    refine .bind (ih own.1) fun more more' agreesMore => ?_
    exact .came (congruent.append (congruent.refl own.2) agreesMore)

section Hoisted

variable {key value again : Yaml} {before after : Tree}

theorem ownSecurity_of_alike (alike : value.Alike again) (conditions : Conditions) :
    ownSecurity scope parent conditions (before ++ (key, value) :: after) =
      ownSecurity scope parent conditions (before ++ (key, again) :: after) := by
  induction before generalizing conditions with
  | nil => simp only [List.nil_append, ownSecurity, security, alike.expression]
  | cons first before ih => simp only [List.cons_append, ownSecurity, ih]

theorem namedSecurity_of_alike (alike : value.Alike again) (conditions : Conditions) :
    namedSecurity scope conditions (before ++ (key, value) :: after) =
      namedSecurity scope conditions (before ++ (key, again) :: after) := by
  induction before generalizing conditions with
  | nil => simp only [List.nil_append, namedSecurity, alike.expression]
  | cons first before ih => simp only [List.cons_append, namedSecurity, ih]

theorem hoisted_of_alike (alike : value.Alike again) (inherited : Option String) :
    hoisted scope parent inherited (before ++ (key, value) :: after) =
      hoisted scope parent inherited (before ++ (key, again) :: after) := by
  simp only [hoisted, ownSecurity_of_alike alike, namedSecurity_of_alike alike]

end Hoisted

structure Agrees (related : List Step → List Step → Prop) (resolver : Resolver) (scope : Scope)
    (tree again : Tree) : Prop where
  empty : tree.isEmpty = again.isEmpty
  guards : guardsItself (.mapping tree) = guardsItself (.mapping again)
  level : ∀ owner parent inherited,
    Except.Agree related (level resolver scope owner parent inherited tree)
      (level resolver scope owner parent inherited again)

namespace Agrees

variable {tree again last sub subAgain : Tree}

theorem refl (congruent : Congruent related) (tree : Tree) :
    Agrees related resolver scope tree tree :=
  ⟨rfl, rfl, fun _ _ _ => .refl congruent.refl _⟩

theorem trans (congruent : Congruent related) (agrees : Agrees related resolver scope tree again)
    (next : Agrees related resolver scope again last) : Agrees related resolver scope tree last where
  empty := agrees.empty.trans next.empty
  guards := agrees.guards.trans next.guards
  level owner parent inherited :=
    (agrees.level owner parent inherited).trans congruent.trans (next.level owner parent inherited)

theorem descend (agrees : Agrees related resolver scope sub subAgain) (key : String)
    (owner condition : Option String) (ref : FieldRef) :
    Except.Agree related
      (descend scope key (.mapping sub) (inside resolver scope (.mapping sub)) owner condition ref)
      (descend scope key (.mapping subAgain) (inside resolver scope (.mapping subAgain)) owner
        condition ref) := by
  simp only [descend_mapping]
  exact agrees.level owner (some ref) condition

/-- A map that is walked alike makes the level around it be walked alike. -/
theorem inside (congruent : Congruent related) (agrees : Agrees related resolver scope sub subAgain)
    (before after : Tree) (key : Yaml) :
    Agrees related resolver scope (before ++ (key, .mapping sub) :: after)
      (before ++ (key, .mapping subAgain) :: after) where
  empty := by cases before <;> rfl
  guards := by simp [guardsItself, Yaml.pairs?, Yaml.untagged]
  level owner parent inherited := by
    have alike : Yaml.Alike (.mapping sub) (.mapping subAgain) := .mapping agrees.guards
    unfold Walk.level
    rw [hoisted_of_alike alike]
    refine .same_bind _ fun own => ?_
    have walkedKey (conditions : Conditions) :
        Except.Agree (Related related)
          (Walk.key resolver scope owner parent conditions key (.mapping sub)
            (Walk.inside resolver scope (.mapping sub)))
          (Walk.key resolver scope owner parent conditions key (.mapping subAgain)
            (Walk.inside resolver scope (.mapping subAgain))) :=
      key_agrees congruent alike agrees.descend (.refl conditions)
    refine .bind (keys_agree_at congruent walkedKey before after own.1) fun more more' agreesMore => ?_
    exact .came (congruent.append (congruent.refl own.2) agreesMore)

end Agrees

end Walk

/-- Trees that come from one another by rewriting levels, at any depth, one after the other. -/
inductive Tree.Rewrites (step : Tree → Tree → Prop) : Tree → Tree → Prop where
  | refl (tree : Tree) : Rewrites step tree tree
  | here {level again : Tree} (rewritten : step level again) : Rewrites step level again
  | inside {before after sub subAgain : Tree} {key : Yaml} (inner : Rewrites step sub subAgain) :
      Rewrites step (before ++ (key, .mapping sub) :: after)
        (before ++ (key, .mapping subAgain) :: after)
  | trans {tree again last : Tree} (first : Rewrites step tree again)
      (second : Rewrites step again last) : Rewrites step tree last

theorem Walk.agrees_of_rewrites {related : List Step → List Step → Prop} {resolver : Resolver}
    {scope : Scope} {step : Tree → Tree → Prop} {tree again : Tree} (congruent : Congruent related)
    (agrees : ∀ level again, step level again → Agrees related resolver scope level again)
    (rewrites : tree.Rewrites step again) : Agrees related resolver scope tree again := by
  induction rewrites with
  | refl tree => exact .refl congruent tree
  | here rewritten => exact agrees _ _ rewritten
  | inside _ ih => exact ih.inside congruent _ _ _
  | trans _ _ first second => exact first.trans congruent second

def Definition.Relates (related : Tree → Tree → Prop) (definition other : Definition) : Prop :=
  List.Forall₂
    (fun entry entry' => entry.1 = entry'.1 ∧
      List.Forall₂ (fun group group' => group.1 = group'.1 ∧ List.Forall₂ related group.2 group'.2)
        entry.2.entries entry'.2.entries)
    definition.types.entries other.types.entries

namespace Walk

inductive Part.Relates (related : Tree → Tree → Prop) : Part → Part → Prop where
  | table (type : String) : Part.Relates related (.table type) (.table type)
  | tree (scope : Scope) {tree again : Tree} (alike : related tree again) :
      Part.Relates related (.tree scope tree) (.tree scope again)

theorem collect_agrees {related : List Step → List Step → Prop} {α : Type} {pairs : α → α → Prop}
    {f g : α → Except MappingError (List Step)} {parts others : List α} (congruent : Congruent related)
    (agrees : ∀ part other, pairs part other → Except.Agree related (f part) (g other))
    (alike : List.Forall₂ pairs parts others) :
    Except.Agree related (collect f parts) (collect g others) := by
  induction alike with
  | nil => exact .came (congruent.refl [])
  | cons first _ ih =>
    refine .bind (agrees _ _ first) fun own own' agreesOwn => ?_
    refine .bind ih fun more more' agreesMore => ?_
    exact .came (congruent.append agreesOwn agreesMore)

theorem collect_agrees_of_forall {related : List Step → List Step → Prop} {α : Type}
    {f g : α → Except MappingError (List Step)} (congruent : Congruent related)
    (agrees : ∀ part, Except.Agree related (f part) (g part)) (parts : List α) :
    Except.Agree related (collect f parts) (collect g parts) := by
  have alike : List.Forall₂ (· = ·) parts parts := List.forall₂_same.mpr fun _ _ => rfl
  refine collect_agrees congruent (fun part _ same => ?_) alike
  subst same
  exact agrees part

end Walk

namespace Definition

variable {definition other : Definition}

theorem Relates.parts {related : Tree → Tree → Prop} (relates : definition.Relates related other) :
    List.Forall₂ (Walk.Part.Relates related) definition.parts other.parts := by
  refine List.rel_flatMap relates fun entry entry' ⟨named, groups⟩ => ?_
  obtain ⟨root, declared⟩ := entry
  obtain ⟨_, declared'⟩ := entry'
  cases named
  refine .cons (.table root) (List.rel_flatMap groups fun group group' ⟨named, trees⟩ => ?_)
  obtain ⟨name, trees₁⟩ := group
  obtain ⟨_, trees₂⟩ := group'
  cases named
  exact List.rel_map (fun _ _ alike => .tree ⟨root, name⟩ alike) trees

theorem steps_agree {related : List Step → List Step → Prop} {resolver : Resolver}
    {pairs : Tree → Tree → Prop} (congruent : Walk.Congruent related)
    (agrees : ∀ scope, ∀ tree ∈ definition.trees scope.root scope.group, ∀ again, pairs tree again →
      Walk.Agrees related resolver scope tree again)
    (relates : definition.Relates pairs other) :
    Except.Agree related (definition.steps resolver) (other.steps resolver) := by
  have within : List.Forall₂ (fun part part' => part ∈ definition.parts ∧ part.Relates pairs part')
      definition.parts other.parts :=
    (List.forall₂_and_left _ _).mpr ⟨fun _ present => present, relates.parts⟩
  rw [steps_eq_collect, steps_eq_collect]
  refine Walk.collect_agrees congruent (fun part part' ⟨present, alike⟩ => ?_) within
  cases alike with
  | table type => exact .came (congruent.refl _)
  | tree scope alike =>
    have agreesTree := agrees scope _ (tree_mem_parts_iff.mp present) _ alike
    simp only [Walk.Part.steps, agreesTree.empty]
    split
    · exact .failed _ _
    · exact agreesTree.level _ none none

end Definition

end Visibility
