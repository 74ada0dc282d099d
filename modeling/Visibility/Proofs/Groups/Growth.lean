import Visibility.Proofs.Expression.Roles
import Visibility.Proofs.Groups.Access
import Visibility.Proofs.Mapping.Coverage
import Visibility.Proofs.Mapping.Loaded

set_option autoImplicit false
set_option relaxedAutoImplicit false

/-!
Callers with more roles see more.

Where the expressions of a definition ask for roles only, so do the criteria of all tags.  The main
statement is that the groups of a caller are then among those of a caller with more roles, in the same
order, and so are the fields that are visible under them.
-/

namespace Visibility

def AsksRoles (text : String) : Prop :=
  ∃ expr, Expr.parse? text = some expr ∧ expr.AsksRoles

theorem AsksRoles.conjoin {inherited : Option String} {expression : String}
    (before : ∀ condition ∈ inherited, AsksRoles condition) (asks : AsksRoles expression) :
    AsksRoles (conjoin inherited expression) := by
  cases inherited with
  | none => exact asks
  | some condition =>
    obtain ⟨left, parsedLeft, asksLeft⟩ := before condition rfl
    obtain ⟨right, parsedRight, asksRight⟩ := asks
    exact ⟨_, Expr.parse?_conjoin parsedLeft parsedRight, .and asksLeft asksRight⟩

namespace GroupQuery

variable {query : GroupQuery} {holder extended : RoleHolder}

def of (query : GroupQuery) (holder : RoleHolder) : GroupQuery :=
  { query with caller := holder.toCaller }

theorem result_consider {evaluator : CriteriaEvaluator} {tag : GroupTag} {others : ActiveGroups}
    {active : List String} (came : others.result = .ok active) :
    (query.consider evaluator tag others).result =
      if tag.fits query.operation query.direction query.policy then
        match tag.criteria with
        | none => .ok (tag.raw :: active)
        | some criteria =>
          if query.lacksInstance tag then .ok active
          else
            match (evaluator criteria query.environment).result with
            | .ok passed => .ok (if passed then tag.raw :: active else active)
            | .error source => .error ⟨criteria, source⟩
      else .ok active := by
  unfold consider
  split
  · cases tag.criteria with
    | none => simp only [came, Except.map]
    | some criteria =>
      dsimp only
      split
      · exact came
      · cases (evaluator criteria query.environment).result with
        | error source => rfl
        | ok passed => cases passed <;> simp [came, Except.map]
  · exact came

theorem exists_sublist_consider {tag : GroupTag} {others othersMore : ActiveGroups}
    {active more : List String} (extends_ : extended.Extends holder)
    (asks : ∀ criteria ∈ tag.criteria, AsksRoles criteria) (came : others.result = .ok active)
    (cameMore : othersMore.result = .ok more) (sublist : active.Sublist more) :
    ∃ own ownMore, ((query.of holder).consider evaluate tag others).result = .ok own ∧
      ((query.of extended).consider evaluate tag othersMore).result = .ok ownMore ∧
      own.Sublist ownMore := by
  rw [result_consider came, result_consider cameMore]
  -- the two queries differ in the caller alone
  have fits : tag.fits (query.of extended).operation (query.of extended).direction
      (query.of extended).policy = tag.fits (query.of holder).operation
        (query.of holder).direction (query.of holder).policy := rfl
  have lacks : (query.of extended).lacksInstance tag = (query.of holder).lacksInstance tag := rfl
  rw [fits, lacks]
  split
  · cases given : tag.criteria with
    | none => exact ⟨_, _, rfl, rfl, sublist.cons_cons _⟩
    | some criteria =>
      dsimp only
      split
      · exact ⟨active, more, rfl, rfl, sublist⟩
      · obtain ⟨expr, parsed, asksRoles⟩ := asks criteria given
        have caller : (query.of holder).environment.caller = holder.toCaller := rfl
        have callerMore : (query.of extended).environment.caller = extended.toCaller := rfl
        obtain ⟨held, later, answered, answeredMore, grows⟩ :=
          asksRoles.grows extends_ caller callerMore
        rw [evaluate_of_parse? parsed, evaluate_of_parse? parsed, answered, answeredMore]
        refine ⟨_, _, rfl, rfl, ?_⟩
        cases held with
        | true =>
          rw [grows rfl]
          exact sublist.cons_cons _
        | false =>
          cases later with
          | true => exact sublist.cons _
          | false => exact sublist
  · exact ⟨active, more, rfl, rfl, sublist⟩

theorem exists_sublist_activeAmong {type : String} {candidates : List String}
    (extends_ : extended.Extends holder)
    (asks : ∀ raw ∈ candidates, ∀ criteria ∈ (GroupTag.parse type raw).criteria,
      AsksRoles criteria) :
    ∃ active more, ((query.of holder).activeAmong evaluate type candidates).result = .ok active ∧
      ((query.of extended).activeAmong evaluate type candidates).result = .ok more ∧
      active.Sublist more := by
  induction candidates with
  | nil => exact ⟨[], [], rfl, rfl, List.Sublist.refl []⟩
  | cons first rest ih =>
    obtain ⟨here, later⟩ := List.forall_mem_cons.mp asks
    obtain ⟨active, more, came, cameMore, sublist⟩ := ih later
    exact exists_sublist_consider extends_ here came cameMore sublist

end GroupQuery

/-- Whether some key of a tree, on any level, takes its value for an expression. -/
def Tree.HasExpression (tree : Tree) (expression : String) : Prop :=
  ∃ level key value name, Level tree level ∧ (key, value) ∈ level ∧ key.text? = some name ∧
    Segment.Secures name ∧ value.text?.map Text.trim = some expression ∧ expression ≠ ""

namespace Definition

def AsksRoles (definition : Definition) : Prop :=
  ∀ type group, ∀ tree ∈ definition.trees type group, ∀ expression,
    Tree.HasExpression tree expression → Visibility.AsksRoles expression

variable {definition : Definition} {resolver : Resolver} {tables : Tables} {table : Table}
  {type : String}

theorem AsksRoles.criteria (asks : definition.AsksRoles) (loaded : definition.Loaded)
    (built : definition.tables resolver = .ok tables) (found : tables.get? type = some table) :
    ∀ raw ∈ table.allGroups, ∀ criteria ∈ (GroupTag.parse table.type raw).criteria,
      Visibility.AsksRoles criteria := by
  obtain ⟨steps, walked, rfl⟩ := tables_eq_ok_iff.mp built
  intro raw present criteria given
  rw [Tables.titled_ofSteps steps type table found] at given
  obtain ⟨tag, ref, tagged, rfl, rfl, declared⟩ :=
    exists_tag_of_lists walked ⟨table, found, present⟩
  rw [GroupTag.parse_text (loaded.plain tag.type tag.group declared)] at given
  have joins (type group : String) : ∀ tree ∈ definition.trees type group,
      tree.Joins Visibility.AsksRoles := by
    intro tree declared level below key value pair name named secures expression spelled filled
      inherited before
    exact .conjoin before (asks type group tree declared expression
      ⟨level, key, value, name, below, pair, named, secures, spelled, filled⟩)
  exact allowed_of_tag_mem_steps joins walked tagged criteria given

/-- A caller with the roles of another one, and perhaps more, has all groups that are active for the
other in the same order, and sees all fields that the other sees. -/
theorem active_sublist_of_extends (loaded : definition.Loaded) (asks : definition.AsksRoles)
    (built : definition.tables resolver = .ok tables) (found : tables.get? type = some table)
    (query : GroupQuery) {holder extended : RoleHolder} (extends_ : extended.Extends holder) :
    ∃ active more, ((query.of holder).active evaluate table).result = .ok active ∧
      ((query.of extended).active evaluate table).result = .ok more ∧ active.Sublist more ∧
      ∀ (other : Table) (field : String), other.isVisible field active = true →
        other.isVisible field more = true := by
  obtain ⟨active, more, came, cameMore, sublist⟩ :=
    GroupQuery.exists_sublist_activeAmong extends_ (asks.criteria loaded built found)
  refine ⟨active, more, came, cameMore, sublist, fun other field visible => ?_⟩
  rw [Table.isVisible_iff] at visible ⊢
  obtain ⟨entry, entered, shown, text, on, carried⟩ := visible
  exact ⟨entry, entered, shown, text, sublist.subset on, carried⟩

section Guarded

theorem loaded_guardedBooks : guardedBooks.Loaded := by
  have read : ofYaml "books" (.mapping [(.string "Book",
      .mapping [(.string "item.normalization.get", .mapping guardedTree)])]) = .ok guardedBooks := rfl
  exact .document read

theorem asksRoles_of_role (role : String) {text : String}
    (scanned : Token.scan text.toList =
      some [.name "is_granted", .openParen, .string role, .closeParen]) :
    Visibility.AsksRoles text :=
  ⟨.call "is_granted" [.literal (.string role)], Expr.parse?_of_scan scanned rfl, .isGranted⟩

theorem asksRoles_guardedBooks : guardedBooks.AsksRoles := by
  rintro type group tree declared expression
    ⟨level, key, value, name, below, pair, named, secures, spelled, filled⟩
  obtain ⟨_, _, rfl⟩ := eq_of_mem_trees_guardedBooks declared
  cases below with
  | self =>
    cases List.mem_singleton.mp pair
    contradiction
  | inside outer below =>
    cases List.mem_singleton.mp outer
    cases below with
    | self =>
      simp only [List.mem_cons, Prod.mk.injEq, List.not_mem_nil, or_false] at pair
      rcases pair with ⟨-, rfl⟩ | ⟨-, rfl⟩ | ⟨-, rfl⟩
      · cases spelled
        exact asksRoles_of_role "STAFF" (by decide +kernel)
      · cases spelled
        exact asksRoles_of_role "ADMIN" (by decide +kernel)
      · contradiction
    | inside outer => simp at outer

def staff : RoleHolder := { roles := ["STAFF"] }

def administrator : RoleHolder := { roles := ["ADMIN", "STAFF"] }

def bookQuery : GroupQuery :=
  { operation := .item, direction := .normalization, caller := RoleHolder.anonymous.toCaller }

theorem active_sublist_of_extends_guardedBooks :
    guardedBooks.Loaded ∧ guardedBooks.AsksRoles ∧ administrator.Extends staff ∧
      ∃ tables table active more, guardedBooks.tables bookResolver = .ok tables ∧
        tables.get? "Book" = some table ∧
        ((bookQuery.of staff).active evaluate table).result = .ok active ∧
        ((bookQuery.of administrator).active evaluate table).result = .ok more ∧
        List.Sublist active more := by
  obtain ⟨tables, built⟩ := exists_tables_guardedBooks
  have mapped : ((guardedBooks.tables bookResolver).toOption.bind (·.get? "Book")).isSome := by
    decide +kernel
  obtain ⟨table, found⟩ := Option.isSome_iff_exists.mp mapped
  rw [built] at found
  have extends_ : administrator.Extends staff := ⟨rfl, by decide⟩
  obtain ⟨active, more, came, cameMore, sublist, _⟩ := active_sublist_of_extends
    loaded_guardedBooks asksRoles_guardedBooks built found bookQuery extends_
  exact ⟨loaded_guardedBooks, asksRoles_guardedBooks, extends_, tables, table, active, more, built,
    found, came, cameMore, sublist⟩

end Guarded

end Definition

end Visibility
