import Visibility.Serialization.Builder

set_option autoImplicit false
set_option relaxedAutoImplicit false

/-!
How a context comes about: a draft that depends on the request and the resources alone, and groups that
are put into it.
-/

namespace Visibility

variable {request : Request} {resources : Resources} {direction : Direction}
  {given : Option Route}

theorem Request.draft_eq_ok_iff {draft : ContextDraft} :
    request.draft resources direction given = .ok draft ↔
      ∃ route resource, request.routeOr given = .ok route ∧
        resources.find? route.resourceClass = some resource ∧
        ContextDraft.ofRoute request resource direction route = draft := by
  unfold Request.draft
  cases routed : request.routeOr given with
  | error cause => simp [Bind.bind, Except.bind]
  | ok route =>
    cases found : resources.find? route.resourceClass with
    | none => simp [Bind.bind, Except.bind, found]
    | some resource => simp [Bind.bind, Except.bind, found, Pure.pure, Except.pure]

theorem Settings.ofRoute_bare (route : Route) : ofRoute {} route direction = .empty := by
  have none_ (key : String) :
      ({} : Resource).attribute? route.operation route.operationName key = none := by
    cases operation : route.operation <;> rfl
  rw [ofRoute, none_]

namespace ContextBuilder

variable {builder : ContextBuilder} {registry : Registry}

theorem exists_of_build {context : SerializationContext}
    (built : (builder.build registry request direction given).result = .ok context) :
    ∃ route resource groups, request.routeOr given = .ok route ∧
      builder.resources.find? route.resourceClass = some resource ∧
      (ContextDraft.ofRoute request resource direction route).withGroups groups = context := by
  unfold build at built
  split at built
  · contradiction
  · next draft drafted =>
    obtain ⟨route, resource, routed, found, rfl⟩ := Request.draft_eq_ok_iff.mp drafted
    split at built
    · next groups _ =>
      cases built
      exact ⟨route, resource, groups, routed, found, rfl⟩
    · unfold evaluate at built
      dsimp only at built
      split at built
      · next groups _ =>
        cases built
        exact ⟨route, resource, groups, routed, found, rfl⟩
      · contradiction

theorem map_groups_build {route : Route} (routed : request.routeOr given = .ok route)
    (bare : builder.resources.find? route.resourceClass = some {}) :
    (builder.build registry request direction given).result.map (·.groups) =
      (builder.activeGroups registry request direction route).result.mapError .criteria := by
  have drafted : request.draft builder.resources direction given =
      .ok (ContextDraft.ofRoute request {} direction route) :=
    Request.draft_eq_ok_iff.mpr ⟨route, {}, routed, bare, rfl⟩
  have unset : (ContextDraft.ofRoute request {} direction route).configuredGroups = none := by
    show (Settings.ofRoute {} route direction).groups? = none
    rw [Settings.ofRoute_bare]
    rfl
  unfold build
  rw [drafted]
  simp only [unset, evaluate]
  have same : (ContextDraft.ofRoute request {} direction route).route = route := rfl
  rw [same]
  cases (builder.activeGroups registry request direction route).result with
  | ok groups => rfl
  | error cause => rfl

end ContextBuilder

end Visibility
