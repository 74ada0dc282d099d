import Visibility.Proofs.Mapping.Following
import Visibility.Proofs.Mapping.Merging
import Visibility.Proofs.Mapping.Rewriting
import Visibility.Proofs.Mapping.Yield

set_option autoImplicit false
set_option relaxedAutoImplicit false

/-!
The order of the keys of a level.

The security keys of a level are taken before its other keys, each of which is then walked by itself, so
that another order of the keys gives the same steps in another order.  The tables of two definitions
that differ in the order of keys have the same entries, with the same tags.
-/

namespace Visibility

namespace Tree

/-- A level of distinct keys, as in every map of a document, all of them texts, none of which has a
security directive between its dots. -/
structure OrderlyKeys (level : Tree) : Prop where
  distinct : (level.map fun pair => pair.1.text?).Nodup
  spelled : ∀ key ∈ level.map Prod.fst, ∃ name, key = .string name ∧
    ('.' ∈ name.toList → ¬ Segment.Secures name)

def Orderly (tree : Tree) : Prop :=
  ∀ level, Level tree level → OrderlyKeys level

/-- An orderly level, and the same one in another order. -/
def Permutes (level again : Tree) : Prop :=
  level.Perm again ∧ level.OrderlyKeys

variable {tree again sub level : Tree}

theorem OrderlyKeys.named (orderly : tree.OrderlyKeys) :
    ∀ pair ∈ tree, ∃ name, pair.1.text? = some name := by
  intro pair present
  obtain ⟨name, spelled, _⟩ := orderly.spelled pair.1 (List.mem_map_of_mem present)
  exact ⟨name, by rw [spelled]; rfl⟩

theorem OrderlyKeys.of_perm (orderly : tree.OrderlyKeys) (perm : tree.Perm again) :
    again.OrderlyKeys where
  distinct := (perm.map _).nodup_iff.mp orderly.distinct
  spelled key present := orderly.spelled key ((perm.map Prod.fst).mem_iff.mpr present)

theorem Orderly.keys (orderly : tree.Orderly) : tree.OrderlyKeys :=
  orderly tree .self

theorem Orderly.inside {key : Yaml} (orderly : tree.Orderly) (pair : (key, .mapping sub) ∈ tree) :
    sub.Orderly :=
  fun level below => orderly level (.inside pair below)

theorem Orderly.intro (keys : tree.OrderlyKeys)
    (inside : ∀ key sub, (key, .mapping sub) ∈ tree → Orderly sub) : tree.Orderly := by
  intro level below
  cases below with
  | self => exact keys
  | inside pair deeper => exact inside _ _ pair level deeper

theorem RegularKeys.orderly (regular : tree.RegularKeys) : tree.OrderlyKeys where
  distinct := regular.distinct
  spelled key present := by
    obtain ⟨⟨_, value⟩, pair, rfl⟩ := List.mem_map.mp present
    obtain ⟨name, rfl, directive | ⟨marker?, fields, spelled⟩⟩ := regular.spelled _ value pair
    · have alone : name ∈ Segment.path name := by
        rw [directive.1]
        exact List.mem_cons_self
      exact ⟨name, rfl, fun dotted => absurd dotted (Segment.not_dot_of_mem_path alone)⟩
    · refine ⟨name, rfl, fun _ ⟨segment, inPath, secures⟩ => ?_⟩
      have known : Segment.IsMarker segment ∨ Segment.IsField segment := by
        rw [spelled.path] at inPath
        rcases List.mem_append.mp inPath with marked | plain
        · exact .inl (spelled.marked segment (Option.mem_toList.mp marked))
        · exact .inr (spelled.plain segment plain)
      unfold Segment.IsMarker Segment.IsField at known
      rcases secures with security | ⟨marker, named⟩
      · simp [security] at known
      · simp [named] at known

theorem Regular.orderly (regular : tree.Regular) : tree.Orderly :=
  fun level below => (regular level below).orderly

theorem Orderly.permutes (orderly : tree.Orderly) (rewrites : tree.Rewrites List.Perm again) :
    again.Orderly ∧ tree.Rewrites Permutes again := by
  induction rewrites with
  | refl tree => exact ⟨orderly, .refl tree⟩
  | here perm =>
    refine ⟨.intro (orderly.keys.of_perm perm) fun key sub pair => ?_, .here ⟨perm, orderly.keys⟩⟩
    exact orderly.inside (perm.mem_iff.mpr pair)
  | @inside before after sub subAgain key inner ih =>
    have present : (key, .mapping sub) ∈ before ++ (key, .mapping sub) :: after := by simp
    obtain ⟨orderlyInner, permutes⟩ := ih (orderly.inside present)
    refine ⟨.intro ?_ fun other held pair => ?_, .inside permutes⟩
    · -- the keys of the level are the same as before
      exact ⟨by simpa using orderly.keys.distinct, by simpa using orderly.keys.spelled⟩
    · rcases List.mem_append.mp pair with inBefore | here
      · exact orderly.inside (List.mem_append_left _ inBefore)
      · rcases List.mem_cons.mp here with same | inAfter
        · cases same
          exact orderlyInner
        · exact orderly.inside (List.mem_append_right _ (List.mem_cons_of_mem _ inAfter))
  | trans _ _ first second =>
    obtain ⟨orderlyBetween, permutes⟩ := first orderly
    obtain ⟨orderlyLast, permutesMore⟩ := second orderlyBetween
    exact ⟨orderlyLast, .trans permutes permutesMore⟩

end Tree

theorem Conditions.define_comm (conditions : Conditions) {first second : String}
    (differ : first ≠ second) (left right : String) :
    ((conditions.define first left).define second right).Same
      ((conditions.define second right).define first left) := by
  refine ⟨rfl, fun asked => ?_⟩
  simp only [Conditions.define, Dict.get?_insert]
  by_cases isSecond : asked = second
  · have notFirst : asked ≠ first := fun same => differ (same.symm.trans isSecond)
    simp only [if_pos isSecond, if_neg notFirst]
  · simp only [if_neg isSecond]

theorem Segment.startsWith_of_isHoisted {name : String} (hoisted : isHoisted name = true)
    (other : name ≠ securityKey) : Text.startsWith namedSecurityLead name = true := by
  rcases isHoisted_iff.mp hoisted with rfl | ⟨starts, _⟩
  · contradiction
  · exact starts

theorem Segment.markerOf_ne {first second : String} (differ : first ≠ second)
    (hoistedFirst : isHoisted first ∧ first ≠ securityKey)
    (hoistedSecond : isHoisted second ∧ second ≠ securityKey) :
    markerOf first ≠ markerOf second := by
  intro same
  have startsFirst := startsWith_of_isHoisted hoistedFirst.1 hoistedFirst.2
  have startsSecond := startsWith_of_isHoisted hoistedSecond.1 hoistedSecond.2
  apply differ
  rw [← append_markerOf startsFirst, same, append_markerOf startsSecond]

namespace Walk

variable {resolver : Resolver} {scope : Scope} {owner : Option String} {parent : Option FieldRef}
  {tree again : Tree}

section Hoisted

theorem exists_names_apart (scope : Scope) {first second : Yaml × Yaml} {rest : Tree}
    (named : ∀ pair ∈ first :: second :: rest, ∃ name, pair.1.text? = some name)
    (distinct : ((first :: second :: rest).map fun pair => pair.1.text?).Nodup) :
    ∃ name other, scope.keyName first.1 = .ok name ∧ scope.keyName second.1 = .ok other ∧
      name ≠ other := by
  obtain ⟨name, here⟩ := named first List.mem_cons_self
  obtain ⟨other, next⟩ := named second (List.mem_cons_of_mem _ List.mem_cons_self)
  refine ⟨name, other, Scope.keyName_eq_ok_iff.mpr here, Scope.keyName_eq_ok_iff.mpr next, ?_⟩
  rintro rfl
  exact (List.nodup_cons.mp distinct).1 (by simp [here, next])

theorem ownSecurity_agrees_of_perm (perm : tree.Perm again)
    (named : ∀ pair ∈ tree, ∃ name, pair.1.text? = some name)
    (distinct : (tree.map fun pair => pair.1.text?).Nodup) (conditions : Conditions) :
    Except.Agree (· = ·) (ownSecurity scope parent conditions tree)
      (ownSecurity scope parent conditions again) := by
  induction perm generalizing conditions with
  | nil => exact .came rfl
  | @cons pair rest others _ ih =>
    obtain ⟨⟨name, here⟩, later⟩ := List.forall_mem_cons.mp named
    have ih := ih later (List.nodup_cons.mp distinct).2
    obtain ⟨key, value⟩ := pair
    simp only [ownSecurity, Scope.keyName_eq_ok_iff.mpr here, Except.ok_bind]
    split
    · refine .same_bind _ fun own => ?_
      refine .bind (ih own.1) fun more _ walked => ?_
      subst walked
      exact .came rfl
    · exact ih conditions
  | swap first second rest =>
    obtain ⟨name, other, here, next, differ⟩ := exists_names_apart scope named distinct
    obtain ⟨key, value⟩ := second
    obtain ⟨otherKey, otherValue⟩ := first
    simp only [ownSecurity, here, next, Except.ok_bind]
    -- no more than one of the two keys is the directive
    by_cases own : name = Segment.securityKey
    · have notOwn : other ≠ Segment.securityKey := fun same => differ (own.trans same.symm)
      simp only [own, notOwn, if_true, if_false]
      exact .refl (fun _ => rfl) _
    · simp only [own, if_false]
      exact .refl (fun _ => rfl) _
  | trans permFirst _ first second =>
    have namedBetween := fun pair present => named pair (permFirst.mem_iff.mpr present)
    have distinctBetween := (permFirst.map _).nodup_iff.mp distinct
    exact (first named distinct conditions).trans (fun _ _ _ => Eq.trans)
      (second namedBetween distinctBetween conditions)

theorem namedSecurity_agrees_of_same {conditions other : Conditions} (same : conditions.Same other)
    (tree : Tree) :
    Except.Agree Conditions.Same (namedSecurity scope conditions tree)
      (namedSecurity scope other tree) := by
  induction tree generalizing conditions other with
  | nil => exact .came same
  | cons pair rest ih =>
    obtain ⟨key, value⟩ := pair
    simp only [namedSecurity]
    refine .same_bind _ fun name => ?_
    split
    · refine .same_bind _ fun expression => ?_
      exact ih (same.define _ expression)
    · exact ih same

theorem namedSecurity_agrees_of_perm (perm : tree.Perm again)
    (named : ∀ pair ∈ tree, ∃ name, pair.1.text? = some name)
    (distinct : (tree.map fun pair => pair.1.text?).Nodup) (conditions : Conditions) :
    Except.Agree Conditions.Same (namedSecurity scope conditions tree)
      (namedSecurity scope conditions again) := by
  induction perm generalizing conditions with
  | nil => exact .came (.refl conditions)
  | @cons pair rest others _ ih =>
    obtain ⟨_, later⟩ := List.forall_mem_cons.mp named
    have ih := ih later (List.nodup_cons.mp distinct).2
    obtain ⟨key, value⟩ := pair
    simp only [namedSecurity]
    refine .same_bind _ fun name => ?_
    split
    · refine .same_bind _ fun expression => ?_
      exact ih _
    · exact ih conditions
  | swap first second rest =>
    obtain ⟨name, other, here, next, differ⟩ := exists_names_apart scope named distinct
    obtain ⟨key, value⟩ := second
    obtain ⟨otherKey, otherValue⟩ := first
    simp only [namedSecurity, here, next, Except.ok_bind]
    by_cases defines : Segment.isHoisted name ∧ name ≠ Segment.securityKey
    · by_cases definesToo : Segment.isHoisted other ∧ other ≠ Segment.securityKey
      · simp only [if_pos defines, if_pos definesToo]
        cases scope.expression name value with
        | error error =>
          cases scope.expression other otherValue with
          | error => exact .failed _ _
          | ok => exact .failed _ _
        | ok left =>
          cases scope.expression other otherValue with
          | error => exact .failed _ _
          | ok right =>
            have apart := Segment.markerOf_ne differ defines definesToo
            exact namedSecurity_agrees_of_same (conditions.define_comm apart left right) rest
      · simp only [if_pos defines, if_neg definesToo]
        exact .refl Conditions.Same.refl _
    · simp only [if_neg defines]
      exact .refl Conditions.Same.refl _
  | trans permFirst _ first second =>
    have namedBetween := fun pair present => named pair (permFirst.mem_iff.mpr present)
    have distinctBetween := (permFirst.map _).nodup_iff.mp distinct
    exact (first named distinct conditions).trans (fun _ _ _ => Conditions.Same.trans)
      (second namedBetween distinctBetween conditions)

theorem hoisted_agrees_of_perm (perm : tree.Perm again) (orderly : tree.OrderlyKeys)
    (inherited : Option String) :
    Except.Agree (Related (· = ·)) (hoisted scope parent inherited tree)
      (hoisted scope parent inherited again) := by
  unfold hoisted
  refine .bind (ownSecurity_agrees_of_perm perm orderly.named orderly.distinct _) fun own _ walked => ?_
  subst walked
  refine .bind (namedSecurity_agrees_of_perm perm orderly.named orderly.distinct own.1)
    fun started other same => ?_
  exact .came ⟨same, rfl⟩

end Hoisted

theorem keySteps_agrees_of_same {conditions other : Conditions} (same : conditions.Same other)
    (pair : Yaml × Yaml) :
    Except.Agree List.Perm (keySteps resolver scope owner parent conditions pair)
      (keySteps resolver scope owner parent other pair) := by
  unfold keySteps
  exact .map (key_agrees_of_same congruent_perm same) fun _ _ agrees => agrees.2

theorem keys_of_orderly {conditions : Conditions} (orderly : tree.OrderlyKeys) :
    keys resolver scope tree owner parent conditions =
      collect (keySteps resolver scope owner parent conditions) tree := by
  refine keys_of_kept fun pair present after steps walked => ?_
  obtain ⟨name, spelled, undotted⟩ := orderly.spelled pair.1 (List.mem_map_of_mem present)
  have keeps (text : String) (named : pair.1.text? = some text)
      (free : Segment.isHoisted text = false) :
      Segment.Keeps (· = conditions) (Segment.path text) := by
    rw [spelled] at named
    cases named
    -- outside of the hoisted keys no segment is a security directive
    have plain : ¬ Segment.Secures name := by
      intro secures
      by_cases dotted : '.' ∈ name.toList
      · exact undotted dotted secures
      · exact Bool.eq_false_iff.mp free (Segment.isHoisted_of_secures secures dotted)
    constructor
    · intro segment inPath security
      exact absurd ⟨segment, inPath, .inl security⟩ plain
    · intro segment inPath marker named
      exact absurd ⟨segment, inPath, .inr ⟨marker, named⟩⟩ plain
  have unchanged := key_keeps keeps rfl walked
  exact unchanged

theorem collect_agrees_of_perm {α : Type} {f : α → Except MappingError (List Step)}
    {parts others : List α} (perm : parts.Perm others) :
    Except.Agree List.Perm (collect f parts) (collect f others) := by
  have both : (∃ steps, collect f parts = .ok steps) ↔ ∃ steps, collect f others = .ok steps := by
    simp only [exists_collect_iff, perm.mem_iff]
  cases walked : collect f parts with
  | error error =>
    cases walkedToo : collect f others with
    | error other => exact .failed error other
    | ok steps =>
      obtain ⟨_, came⟩ := both.mpr ⟨steps, walkedToo⟩
      rw [walked] at came
      contradiction
  | ok steps =>
    obtain ⟨others', walkedToo⟩ := both.mp ⟨steps, walked⟩
    rw [walkedToo, collect_eq_flatMap walked, collect_eq_flatMap walkedToo]
    exact .came (perm.flatMap_right _)

theorem agrees_of_permutes (permutes : tree.Permutes again) :
    Agrees List.Perm resolver scope tree again := by
  obtain ⟨perm, orderly⟩ := permutes
  constructor
  case empty => exact perm.isEmpty_eq
  case guards => exact perm.any_eq
  case level =>
    intro owner parent inherited
    unfold level
    refine .bind (hoisted_agrees_of_perm perm orderly inherited)
      fun ⟨conditions, own⟩ ⟨other, own'⟩ ⟨same, given⟩ => ?_
    have walked : Except.Agree List.Perm
        (collect (keySteps resolver scope owner parent conditions) tree)
        (collect (keySteps resolver scope owner parent other) again) :=
      (collect_agrees_of_forall congruent_perm (keySteps_agrees_of_same same) tree).trans
        congruent_perm.trans (collect_agrees_of_perm perm)
    dsimp only at given ⊢
    rw [keys_of_orderly orderly, keys_of_orderly (orderly.of_perm perm), given]
    exact .bind walked fun more more' permMore => .came (permMore.append_left own')

end Walk

/-- Tables that hold the same, in whatever order, but for the limits of entries. -/
structure Tables.HoldsSame (tables other : Tables) : Prop where
  types : ∀ type, type ∈ tables.keys ↔ type ∈ other.keys
  entries : ∀ ref, (tables.entryAt? ref).isSome ↔ (other.entryAt? ref).isSome
  tagged : ∀ ref text, tables.Tagged ref text ↔ other.Tagged ref text
  listed : ∀ type text, tables.Lists type text ↔ other.Lists type text

theorem Tables.holdsSame_ofSteps {steps again : List Step} (perm : steps.Perm again) :
    (ofSteps steps).HoldsSame (ofSteps again) := by
  have union : (ofSteps steps).IsUnion (ofSteps again) (ofSteps again) :=
    isUnion_ofSteps fun step => by rw [or_self, perm.mem_iff]
  exact ⟨fun type => (union.types type).trans or_self_iff,
    fun ref => (union.entries ref).trans or_self_iff,
    fun ref text => (union.tagged ref text).trans or_self_iff,
    fun type text => (union.listed type text).trans or_self_iff⟩

namespace Definition

def Orderly (definition : Definition) : Prop :=
  ∀ type group, ∀ tree ∈ definition.trees type group, Tree.Orderly tree

variable {definition other : Definition} {resolver : Resolver}

theorem steps_agree_of_perm (orderly : definition.Orderly)
    (reordered : definition.Relates (Tree.Rewrites List.Perm) other) :
    Except.Agree List.Perm (definition.steps resolver) (other.steps resolver) := by
  refine steps_agree Walk.congruent_perm (fun scope tree declared again rewrites => ?_) reordered
  have permutes := ((orderly scope.root scope.group tree declared).permutes rewrites).2
  exact Walk.agrees_of_rewrites Walk.congruent_perm (fun _ _ => Walk.agrees_of_permutes) permutes

/-- Definitions that differ in the order of keys, at any depth, both have tables or both have none,
and their tables hold the same types, entries and tags. -/
theorem tables_holdsSame_of_perm (orderly : definition.Orderly)
    (reordered : definition.Relates (Tree.Rewrites List.Perm) other) (resolver : Resolver) :
    ((∃ tables, definition.tables resolver = .ok tables) ↔
      ∃ tables, other.tables resolver = .ok tables) ∧
    ∀ tables otherTables, definition.tables resolver = .ok tables →
      other.tables resolver = .ok otherTables → tables.HoldsSame otherTables := by
  have walked : Except.Agree List.Perm (definition.steps resolver) (other.steps resolver) :=
    steps_agree_of_perm orderly reordered
  constructor
  · simp only [exists_tables_iff, walked.exists_ok_iff]
  · intro tables otherTables built builtOther
    obtain ⟨steps, walkedFirst, rfl⟩ := tables_eq_ok_iff.mp built
    obtain ⟨otherSteps, walkedOther, rfl⟩ := tables_eq_ok_iff.mp builtOther
    exact Tables.holdsSame_ofSteps (walked.of_ok walkedFirst walkedOther)

def shuffledBooks : Definition :=
  Definition.empty.push "Book" "item.normalization.get"
    [(.string "publisher", .mapping
      [(.string "_admin.contact", .null), (.string "_security_admin", .string "is_granted('ADMIN')"),
        (.string "_security", .string "is_granted('STAFF')")])]

theorem tables_holdsSame_of_perm_shuffledBooks :
    guardedBooks.Orderly ∧ guardedBooks.Relates (Tree.Rewrites List.Perm) shuffledBooks ∧
      ∃ tables shuffled, guardedBooks.tables bookResolver = .ok tables ∧
        shuffledBooks.tables bookResolver = .ok shuffled ∧ tables.HoldsSame shuffled := by
  have orderly : guardedBooks.Orderly := fun type group tree declared =>
    (regular_guardedBooks type group tree declared).orderly
  let guarded : Tree :=
    [(.string "_security", .string "is_granted('STAFF')"),
      (.string "_security_admin", .string "is_granted('ADMIN')"), (.string "_admin.contact", .null)]
  have rewrites : Tree.Rewrites List.Perm ([] ++ (.string "publisher", .mapping guarded) :: [])
      ([] ++ (.string "publisher", .mapping guarded.reverse) :: []) :=
    .inside (.here guarded.reverse_perm.symm)
  have reordered : guardedBooks.Relates (Tree.Rewrites List.Perm) shuffledBooks :=
    .cons ⟨rfl, .cons ⟨rfl, .cons rewrites .nil⟩ .nil⟩ .nil
  obtain ⟨tables, built⟩ := exists_tables_guardedBooks
  obtain ⟨both, holdsSame⟩ := tables_holdsSame_of_perm orderly reordered bookResolver
  obtain ⟨shuffled, builtShuffled⟩ := both.mp ⟨tables, built⟩
  exact ⟨orderly, reordered, tables, shuffled, built, builtShuffled,
    holdsSame tables shuffled built builtShuffled⟩

end Definition

end Visibility
