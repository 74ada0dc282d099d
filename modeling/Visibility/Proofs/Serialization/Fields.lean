import Visibility.Proofs.Ordered.Dict
import Visibility.Proofs.Serialization.Building

set_option autoImplicit false
set_option relaxedAutoImplicit false

/-!
The fields of a written context, and the extra settings among them.

The settings of an operation are free, and those that have no field of their own are written behind the
fields.  A setting that is named like a field must not get there; the main statement is that three do.
-/

namespace Visibility

namespace SerializationContext

def ownKeys : List String :=
  ["groups", "resource_class", "operation_type", "operation_name", "direction", "allow_update",
    "deep_object_to_populate", "as_collection", "iri_only", "input", "output", "request_uri", "uri",
    "subresource_identifiers", "subresource_resources", "subresource_property",
    "subresource_resource_class", "enable_max_depth", "skip_null_values"]

/-- The fields that a setting of the same name is not kept away from. -/
def exposedKeys : List String :=
  ["operation_name", "direction", "allow_update"]

theorem mem_exposedKeys_iff {name : String} (own : name ∈ ownKeys) :
    name ∈ exposedKeys ↔ name ∉ reservedKeys := by
  have all : ∀ name ∈ ownKeys, name ∈ exposedKeys ↔ name ∉ reservedKeys := by decide +kernel
  exact all name own

private theorem keys_given (name : String) (value : Option Json) :
    ((given name value).map Prod.fst).Sublist [name] := by
  cases value with
  | none => exact List.nil_sublist _
  | some value => exact List.Sublist.refl _

theorem keys_ownFields_sublist (context : SerializationContext) :
    (context.ownFields.map Prod.fst).Sublist ownKeys := by
  simp only [ownFields, List.map_append]
  have parts : ownKeys =
      ["groups", "resource_class", "operation_type", "operation_name", "direction"] ++
      ["allow_update"] ++ ["deep_object_to_populate"] ++ ["as_collection"] ++
      ["iri_only", "input", "output", "request_uri", "uri"] ++ ["subresource_identifiers"] ++
      ["subresource_resources"] ++ ["subresource_property"] ++ ["subresource_resource_class"] ++
      ["enable_max_depth", "skip_null_values"] := rfl
  rw [parts]
  exact (((((((((List.Sublist.refl _).append (keys_given _ _)).append (keys_given _ _)).append
    (keys_given _ _)).append (List.Sublist.refl _)).append (keys_given _ _)).append
    (keys_given _ _)).append (keys_given _ _)).append (keys_given _ _)).append (List.Sublist.refl _)

theorem nodup_keys_ownFields (context : SerializationContext) :
    (context.ownFields.map Prod.fst).Nodup :=
  context.keys_ownFields_sublist.nodup (by decide +kernel)

end SerializationContext

theorem Settings.not_mem_reservedKeys_of_mem_extra {settings : Settings} {key : String}
    (extra : key ∈ settings.extra.keys) : key ∉ SerializationContext.reservedKeys := by
  have nodup : ((settings.entries.filter fun entry =>
      !SerializationContext.reservedKeys.contains entry.1).map Prod.fst).Nodup :=
    (List.filter_sublist.map Prod.fst).nodup settings.nodup
  obtain ⟨value, found⟩ := Option.ne_none_iff_exists'.mp fun none_ =>
    settings.extra.get?_eq_none_iff.mp none_ extra
  rw [Settings.extra, Dict.get?_ofList nodup, Assoc.lookup_eq_some_iff_mem nodup,
    List.mem_filter] at found
  simpa using found.2

namespace SerializationContext

variable {context : SerializationContext}

/-- What the fields of a context are read back as; a repeated key has its last value. -/
def readBack (context : SerializationContext) : Dict Json :=
  Dict.ofList context.fields

theorem nodup_keys_fields_iff : (context.fields.map Prod.fst).Nodup ↔
    ∀ name ∈ context.ownFields.map Prod.fst, name ∉ context.extra.keys := by
  rw [fields, List.map_append, List.nodup_append]
  constructor
  · rintro ⟨-, -, apart⟩ name own extra
    exact apart name own name extra rfl
  · intro apart
    refine ⟨context.nodup_keys_ownFields, context.extra.nodup, ?_⟩
    rintro name own _ extra rfl
    exact apart name own extra

theorem get?_readBack (name : String) : context.readBack.get? name =
    (context.extra.get? name).or (context.ownFields.lookup name) := by
  rw [readBack, fields, Dict.get?_ofList_append, Dict.get?_ofList context.nodup_keys_ownFields]

/-- The keys of a written context are distinct unless an extra setting is named like one of three
fields.  Every other field is read back as it was computed; those three have the value of the extra
setting where there is one. -/
theorem fields_of_build {builder : ContextBuilder} {registry : Registry} {request : Request}
    {direction : Direction} {given : Option Route}
    (built : (builder.build registry request direction given).result = .ok context) :
    ((context.fields.map Prod.fst).Nodup ↔
        ∀ name ∈ exposedKeys, name ∈ context.ownFields.map Prod.fst → name ∉ context.extra.keys) ∧
      ∀ name ∈ ownKeys, context.readBack.get? name =
        if name ∈ exposedKeys then (context.extra.get? name).or (context.ownFields.lookup name)
        else context.ownFields.lookup name := by
  obtain ⟨route, resource, groups, routed, found, rfl⟩ := ContextBuilder.exists_of_build built
  generalize drafted : (ContextDraft.ofRoute request resource direction route).withGroups groups =
    context
  have exposed {name : String} (own : name ∈ ownKeys) (extra : name ∈ context.extra.keys) :
      name ∈ exposedKeys := by
    rw [← drafted] at extra
    exact (mem_exposedKeys_iff own).mpr (Settings.not_mem_reservedKeys_of_mem_extra extra)
  constructor
  · rw [nodup_keys_fields_iff]
    constructor
    · exact fun apart name _ own => apart name own
    · intro apart name own extra
      exact apart name (exposed (context.keys_ownFields_sublist.subset own) extra) own extra
  · intro name own
    rw [get?_readBack]
    split
    · rfl
    · next kept =>
      have absent : context.extra.get? name = none :=
        context.extra.get?_eq_none_iff.mpr fun extra => kept (exposed own extra)
      rw [absent, Option.none_or]

section Sideways

def sidewaysOperation : Operation :=
  { attributes := Dict.empty.insert "normalization_context"
      (.object [("groups", .string "read"), ("direction", .string "sideways")]) }

def sidewaysBooks : Resource :=
  { itemOperations := Dict.empty.insert "get" sidewaysOperation }

def sidewaysBuilder : ContextBuilder :=
  { resources := ⟨Dict.empty.insert "Book" sidewaysBooks⟩
    evaluator := evaluate
    caller := RoleHolder.anonymous.toCaller }

def sidewaysRoute : Route := { resourceClass := "Book", operation := .item, operationName := "get" }

def sidewaysContext : SerializationContext :=
  (ContextDraft.ofRoute (.ofUri "GET" "/books/1") sidewaysBooks .normalization
    sidewaysRoute).withGroups ["read"]

theorem build_sidewaysContext : (sidewaysBuilder.build {} (.ofUri "GET" "/books/1") .normalization
    (some sidewaysRoute)).result = .ok sidewaysContext := rfl

theorem fields_of_build_sideways :
    ¬ (sidewaysContext.fields.map Prod.fst).Nodup ∧
      sidewaysContext.readBack.get? "direction" = some (.string "sideways") ∧
      sidewaysContext.readBack.get? "groups" = some (.strings ["read"]) := by
  obtain ⟨distinct, read⟩ := fields_of_build build_sidewaysContext
  refine ⟨fun nodup => ?_, read "direction" (by decide +kernel), read "groups" (by decide +kernel)⟩
  exact distinct.mp nodup "direction" (by decide +kernel) (by decide +kernel) (by decide +kernel)

/-- A setting with the name of a field is written behind the field, and is what is read back. -/
theorem not_forall_nodup_keys_fields :
    ¬ ∀ (builder : ContextBuilder) (registry : Registry) (request : Request)
        (direction : Direction) (given : Option Route) (context : SerializationContext),
      (builder.build registry request direction given).result = .ok context →
      (context.fields.map Prod.fst).Nodup ∧
        ∀ name ∈ ownKeys, context.readBack.get? name = context.ownFields.lookup name := by
  intro keeps
  have nodup := (keeps _ _ _ _ _ _ build_sidewaysContext).1
  revert nodup
  decide +kernel

end Sideways

end SerializationContext

end Visibility
