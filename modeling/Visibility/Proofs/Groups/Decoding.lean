import Visibility.Proofs.Groups.Activation
import Visibility.Proofs.Mapping.Listing
import Visibility.Proofs.Mapping.Loaded

set_option autoImplicit false
set_option relaxedAutoImplicit false

/-!
What the listed tags of a type are taken apart into.

A written tag is its type, its group and its condition with colons between them, none of which is
escaped.  The type is known to who takes a tag apart, and no group of a loaded definition has a colon,
so that what comes out is the group and the condition under which the tag was issued.
-/

namespace Visibility

namespace GroupTag

/-- The group of a tag is spelled by its parts, the last of which takes all further dots. -/
structure Parted (tag : GroupTag) : Prop where
  concerns : '.' ∉ tag.concerns.toList
  mode : '.' ∉ tag.mode.toList
  spelled : tag.group = tag.concerns ∧ tag.mode = "" ∧ tag.verb = "" ∨
    tag.group = tag.concerns ++ "." ++ tag.mode ∧ tag.verb = "" ∨
    tag.group = tag.concerns ++ "." ++ tag.mode ++ "." ++ tag.verb

theorem parts_cases (group : String) :
    '.' ∉ group.toList ∧ parts group = (group, "", "") ∨
    ∃ concerns rest, '.' ∉ concerns.toList ∧ group = concerns ++ "." ++ rest ∧
      ('.' ∉ rest.toList ∧ parts group = (concerns, rest, "") ∨
        ∃ mode verb, '.' ∉ mode.toList ∧ rest = mode ++ "." ++ verb ∧
          parts group = (concerns, mode, verb)) := by
  have dot : "." = String.singleton '.' := rfl
  rcases Text.cutFirst?_cases '.' group with ⟨absent, whole⟩ | ⟨concerns, rest, plain, spelled, cut⟩
  · refine .inl ⟨absent, ?_⟩
    rw [parts, dot, whole]
  · refine .inr ⟨concerns, rest, plain, spelled, ?_⟩
    rcases Text.cutFirst?_cases '.' rest with ⟨absent, whole⟩ | ⟨mode, verb, plainMode, same, cutRest⟩
    · refine .inl ⟨absent, ?_⟩
      rw [parts, dot, cut]
      simp only [whole]
    · refine .inr ⟨mode, verb, plainMode, same, ?_⟩
      rw [parts, dot, cut]
      simp only [cutRest]

theorem parted_parse (type raw : String) : (parse type raw).Parted := by
  unfold parse
  split
  next group criteria _ =>
    rcases parts_cases group with ⟨absent, one⟩ | ⟨concerns, rest, plain, rfl, more⟩
    · rw [one]
      exact ⟨absent, List.not_mem_nil, .inl ⟨rfl, rfl, rfl⟩⟩
    · rcases more with ⟨absent, two⟩ | ⟨mode, verb, plainMode, rfl, three⟩
      · rw [two]
        exact ⟨plain, absent, .inr (.inl ⟨rfl, rfl⟩)⟩
      · rw [three]
        exact ⟨plain, plainMode, .inr (.inr (by simp only [String.append_assoc]))⟩

end GroupTag

namespace Definition

variable {definition : Definition} {resolver : Resolver} {tag : Tag}

/-- The walk of a tree of the tag's group issues the tag for the type of the group. -/
def Issues (definition : Definition) (resolver : Resolver) (tag : Tag) : Prop :=
  ∃ tree ∈ definition.trees tag.type tag.group, ∃ own,
    Walk.level resolver ⟨tag.type, tag.group⟩ (some tag.type) none none tree = .ok own ∧
      .catchAll tag ∈ own

theorem lists_iff_issues {tables : Tables} (built : definition.tables resolver = .ok tables)
    (type text : String) :
    tables.Lists type text ↔ ∃ tag, definition.Issues resolver tag ∧ tag.type = type ∧
      tag.text = text := by
  obtain ⟨steps, walked, rfl⟩ := tables_eq_ok_iff.mp built
  rw [Tables.lists_ofSteps_iff]
  refine exists_congr fun tag => and_congr_left fun _ => ?_
  rw [mem_steps_iff walked]
  constructor
  · rintro (⟨_, _, other⟩ | ⟨type, group, tree, declared, own, walkedTree, present⟩)
    · contradiction
    · have yields := Walk.yields_level tree tree.joins_ne_empty (by simp) walkedTree
      obtain ⟨ref, given⟩ := (yields.paired.listed tag).mp present
      obtain ⟨condition, rfl⟩ := yields.paired.ofScope ref tag given
      exact ⟨tree, declared, own, walkedTree, present⟩
  · rintro ⟨tree, declared, own, walkedTree, present⟩
    exact .inr ⟨tag.type, tag.group, tree, declared, own, walkedTree, present⟩

theorem Issues.plain (issues : definition.Issues resolver tag) (loaded : definition.Loaded) :
    ':' ∉ tag.group.toList := by
  obtain ⟨tree, declared, _⟩ := issues
  have inScopes : Scope.mk tag.type tag.group ∈ definition.scopes := by
    by_contra undeclared
    rw [trees_eq_nil undeclared] at declared
    contradiction
  exact loaded.plain tag.type tag.group (mem_scopes_iff.mp inScopes)

/-- In the tables of a loaded definition, every tag that a type lists is issued by a group of the type,
and is taken apart into that group and the condition under which it was issued. -/
theorem parse_of_lists (loaded : definition.Loaded) {tables : Tables}
    (built : definition.tables resolver = .ok tables) {type text : String}
    (lists : tables.Lists type text) :
    (∃ tag, definition.Issues resolver tag ∧ tag.type = type ∧ tag.text = text) ∧
    (∀ tag, definition.Issues resolver tag → tag.type = type → tag.text = text →
      (GroupTag.parse type text).group = tag.group ∧
        (GroupTag.parse type text).criteria = tag.condition) ∧
    (GroupTag.parse type text).Parted := by
  refine ⟨(lists_iff_issues built type text).mp lists, ?_, GroupTag.parted_parse type text⟩
  rintro tag issues rfl rfl
  rw [GroupTag.parse_text (issues.plain loaded)]
  exact ⟨rfl, rfl⟩

def colonBooks : Definition :=
  Definition.empty.push "App:Book.v1" "item.normalization.get"
    [(.string "title", .mapping [(.string "_security", .string "object.kind == 'a:b'")])]

theorem parse_of_lists_colonBooks :
    colonBooks.Loaded ∧ ∃ tables text, colonBooks.tables bookResolver = .ok tables ∧
      tables.Lists "App:Book.v1" text ∧
      (GroupTag.parse "App:Book.v1" text).group = "item.normalization.get" ∧
      (GroupTag.parse "App:Book.v1" text).criteria = some "object.kind == 'a:b'" := by
  have read : ofYaml "books" (.mapping [(.string "App:Book.v1", .mapping [(.string
      "item.normalization.get", .mapping [(.string "title", .mapping
        [(.string "_security", .string "object.kind == 'a:b'")])])])]) = .ok colonBooks := rfl
  have loaded : colonBooks.Loaded := .document read
  let tag : Tag := ⟨"App:Book.v1", "item.normalization.get", some "object.kind == 'a:b'"⟩
  obtain ⟨tables, built⟩ : ∃ tables, colonBooks.tables bookResolver = .ok tables :=
    Except.exists_of_isOk (by decide +kernel)
  have issues : colonBooks.Issues bookResolver tag := by
    refine ⟨_, List.mem_singleton_self _, _, rfl, ?_⟩
    decide +kernel
  have lists := (lists_iff_issues built tag.type tag.text).mpr ⟨tag, issues, rfl, rfl⟩
  obtain ⟨group, criteria⟩ := (parse_of_lists loaded built lists).2.1 tag issues rfl rfl
  exact ⟨loaded, tables, tag.text, built, lists, group, criteria⟩

end Definition

end Visibility
