import Visibility.Proofs.Ordered.Join
import Visibility.Proofs.Serialization.Independence

set_option autoImplicit false
set_option relaxedAutoImplicit false

/-!
The two views of the parameters that identify the resources around a nested one.

One view is flat, the other by class.  Both are filled from the parameters in their order; the main
statement is that the flat view has all of them, and that the map of a class is the part of the flat view
whose parameters identify one of that class.
-/

namespace Visibility

namespace Subresource

def valueOf (request : Request) (parameter : String) : Json :=
  (request.attribute? parameter).getD .null

def filed (value : String → Json) (parameters : List (String × String)) : Dict (Dict Json) :=
  parameters.foldl (fun classes (parameter, name) =>
    classes.alter name fun values? => (values?.getD .empty).insert parameter (value parameter)) .empty

variable {value : String → Json} {parameters : List (String × String)}

theorem filed_append_singleton (value : String → Json) (parameters : List (String × String))
    (last : String × String) : filed value (parameters ++ [last]) =
      (filed value parameters).alter last.2 fun values? =>
        (values?.getD .empty).insert last.1 (value last.1) :=
  List.foldl_append

theorem keys_filed : (filed value parameters).keys = (parameters.map Prod.snd).eraseDups := by
  induction parameters using List.reverseRecOn with
  | nil => rfl
  | append_singleton parameters last ih =>
    rw [filed_append_singleton, Dict.keys_alter, ih, List.map_append, List.eraseDups_append]
    by_cases known : last.2 ∈ parameters.map Prod.snd
    · have none_ : [last.2].removeAll (parameters.map Prod.snd) = [] := by
        simpa [List.removeAll] using known
      rw [if_pos (List.mem_eraseDups.mpr known), List.map_singleton, none_]
      exact (List.append_nil _).symm
    · have all : [last.2].removeAll (parameters.map Prod.snd) = [last.2] := by
        simpa [List.removeAll] using known
      rw [if_neg (List.mem_eraseDups.not.mpr known), List.map_singleton, all]
      rfl

theorem entries_filed (nodup : (parameters.map Prod.fst).Nodup) (name : String) :
    (((filed value parameters).get? name).getD .empty).entries =
      (parameters.filter (·.2 = name)).map fun entry => (entry.1, value entry.1) := by
  induction parameters using List.reverseRecOn with
  | nil => rfl
  | append_singleton parameters last ih =>
    rw [List.map_append, List.nodup_append] at nodup
    have before := ih nodup.1
    rw [filed_append_singleton, Dict.get?_alter, List.filter_append, List.map_append, ← before]
    by_cases same : name = last.2
    · have absent : last.1 ∉
          ((((filed value parameters).get? name).getD .empty).entries).map Prod.fst := by
        rw [before, List.map_map]
        intro twice
        obtain ⟨entry, filed_, spelled⟩ := List.mem_map.mp twice
        have known : entry.1 ∈ parameters.map Prod.fst :=
          List.mem_map_of_mem (List.mem_of_mem_filter filed_)
        exact nodup.2.2 _ known _ (List.mem_singleton_self _) spelled
      rw [if_pos same, List.filter_cons_of_pos (by simp [same]), Option.getD_some, ← same]
      exact Assoc.alter_of_not_mem absent _
    · rw [if_neg same, List.filter_cons_of_neg (by simpa using Ne.symm same)]
      exact (List.append_nil _).symm

variable {subresource : Subresource} {request : Request}

theorem resourceValues_eq_filed (subresource : Subresource) (request : Request) :
    subresource.resourceValues request =
      filed (valueOf request) subresource.identifiers.entries := rfl

theorem entries_identifierValues (subresource : Subresource) (request : Request) :
    (subresource.identifierValues request).entries =
      subresource.identifiers.entries.map fun entry => (entry.1, valueOf request entry.1) := by
  refine Dict.entries_ofList ?_
  rw [List.map_map]
  exact subresource.identifiers.nodup

theorem filter_identifierValues (subresource : Subresource) (request : Request) (name : String) :
    ((subresource.identifierValues request).entries.filter fun entry =>
        subresource.identifiers.get? entry.1 = some name) =
      (subresource.identifiers.entries.filter (·.2 = name)).map fun entry =>
        (entry.1, valueOf request entry.1) := by
  rw [entries_identifierValues, List.filter_map]
  refine congrArg _ (List.filter_congr fun entry present => ?_)
  have named : subresource.identifiers.get? entry.1 = some entry.2 :=
    subresource.identifiers.mem_entries_iff.mp present
  simp [named]

theorem entries_resourceValues {name : String} {values : Dict Json}
    (found : (subresource.resourceValues request).get? name = some values) :
    values.entries = (subresource.identifierValues request).entries.filter fun entry =>
      subresource.identifiers.get? entry.1 = some name := by
  have held : (((subresource.resourceValues request).get? name).getD .empty).entries =
      (subresource.identifiers.entries.filter (·.2 = name)).map fun entry =>
        (entry.1, valueOf request entry.1) :=
    entries_filed subresource.identifiers.nodup name
  rw [found, Option.getD_some] at held
  rw [held, filter_identifierValues]

theorem mem_keys_iff_of_resourceValues {name parameter : String} {values : Dict Json}
    (found : (subresource.resourceValues request).get? name = some values) :
    parameter ∈ values.keys ↔ subresource.identifiers.get? parameter = some name := by
  rw [Dict.keys, entries_resourceValues found, filter_identifierValues, List.map_map,
    ← Dict.mem_entries_iff]
  constructor
  · intro present
    obtain ⟨entry, filed_, rfl⟩ := List.mem_map.mp present
    obtain ⟨inEntries, same⟩ := List.mem_filter.mp filed_
    rw [← of_decide_eq_true same]
    exact inEntries
  · intro inEntries
    exact List.mem_map.mpr ⟨_, List.mem_filter.mpr ⟨inEntries, decide_eq_true rfl⟩, rfl⟩

/-- The flat view has the parameters of a nested resource in order, each with its value, and the other
view has the classes in the order of first mention, each with its part of the flat view. -/
structure ViewsAgree (subresource : Subresource) (request : Request) (identifiers : Dict Json)
    (classes : Dict (Dict Json)) : Prop where
  ordered : identifiers.entries =
    subresource.identifiers.entries.map fun entry => (entry.1, valueOf request entry.1)
  mentioned : classes.keys = subresource.identifiers.values.eraseDups
  parts : ∀ name values, classes.get? name = some values → values.entries =
    identifiers.entries.filter fun entry => subresource.identifiers.get? entry.1 = some name
  /-- Every parameter is in the map of one class. -/
  unique : ∀ parameter ∈ identifiers.keys, ∃! name, ∃ values,
    classes.get? name = some values ∧ parameter ∈ values.keys

theorem viewsAgree (subresource : Subresource) (request : Request) :
    subresource.ViewsAgree request (subresource.identifierValues request)
      (subresource.resourceValues request) where
  ordered := entries_identifierValues subresource request
  mentioned := keys_filed
  parts _ _ found := entries_resourceValues found
  unique := by
    intro parameter present
    rw [Dict.keys, entries_identifierValues, List.map_map] at present
    obtain ⟨⟨_, name⟩, inEntries, rfl⟩ := List.mem_map.mp present
    have named := subresource.identifiers.mem_entries_iff.mp inEntries
    have mentioned : name ∈ (subresource.resourceValues request).keys := by
      rw [resourceValues_eq_filed, keys_filed, List.mem_eraseDups]
      exact List.mem_map_of_mem inEntries
    obtain ⟨values, found⟩ := Option.ne_none_iff_exists'.mp fun missing =>
      (Dict.get?_eq_none_iff _).mp missing mentioned
    refine ⟨name, ⟨values, found, (mem_keys_iff_of_resourceValues found).mpr named⟩, ?_⟩
    rintro other ⟨others, foundOther, inOther⟩
    have namedOther := (mem_keys_iff_of_resourceValues foundOther).mp inOther
    exact Option.some.inj (namedOther.symm.trans named)

/-- The context of a request that is routed to a nested resource has the values of its route parameters
in both views, and the views agree. -/
theorem viewsAgree_of_buildOver {builder : ContextBuilder} {tables : TableSource}
    {direction : Direction} {given : Option Route} {route : Route} {context : SerializationContext}
    (built : (builder.buildOver request direction given tables).result = .ok context)
    (routed : request.routeOr given = .ok route) (nested : route.subresource = some subresource) :
    ∃ identifiers classes, context.subresourceIdentifiers = some identifiers ∧
      context.subresourceResources = some classes ∧
        subresource.ViewsAgree request identifiers classes := by
  obtain ⟨draft, groups, drafted, rfl⟩ := ContextBuilder.exists_of_buildOver built
  obtain ⟨found, resource, routedFound, _, rfl⟩ := Request.draft_eq_ok_iff.mp drafted
  obtain rfl : found = route := Except.ok.inj (routedFound.symm.trans routed)
  refine ⟨subresource.identifierValues request, subresource.resourceValues request, ?_, ?_,
    subresource.viewsAgree request⟩
  · exact congrArg (Option.map (·.identifierValues request)) nested
  · exact congrArg (Option.map (·.resourceValues request)) nested

section Chapters

/-- Chapters are reached through a shop and a book of it; the shop is named twice. -/
def chapters : Subresource :=
  { identifiers := Dict.ofList [("shop", "Shop"), ("book", "Book"), ("branch", "Shop")] }

def chapterRoute : Route :=
  { resourceClass := "Book", operation := .subresource, operationName := "chapters",
    subresource := some chapters }

def chapterRequest : Request :=
  (Request.ofUri "GET" "/shops/3/books/7/chapters").addAttribute "shop" (.int 3)
    |>.addAttribute "book" (.int 7)

theorem viewsAgree_of_buildOver_chapters : ∃ context identifiers classes,
    (ContextBuilder.visitorBuilder.buildOver chapterRequest .normalization (some chapterRoute)
      (.ready {})).result = .ok context ∧
    context.subresourceIdentifiers = some identifiers ∧
    context.subresourceResources = some classes ∧
    chapters.ViewsAgree chapterRequest identifiers classes ∧ classes.keys = ["Shop", "Book"] := by
  obtain ⟨context, built⟩ : ∃ context, (ContextBuilder.visitorBuilder.buildOver chapterRequest
      .normalization (some chapterRoute) (.ready {})).result = .ok context := ⟨_, rfl⟩
  obtain ⟨identifiers, classes, flat, nested, agree⟩ := viewsAgree_of_buildOver built rfl rfl
  refine ⟨context, identifiers, classes, built, flat, nested, agree, ?_⟩
  rw [agree.mentioned]
  rfl

end Chapters

end Subresource

end Visibility
