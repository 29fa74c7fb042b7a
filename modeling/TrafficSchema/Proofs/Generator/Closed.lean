import Mathlib.Data.List.Nodup
import TrafficSchema.Generator.Input
import TrafficSchema.Proofs.Capture.Derived
import TrafficSchema.Proofs.Capture.Identity
import TrafficSchema.Proofs.Exchange.References
import TrafficSchema.Proofs.Generator.ReturnType

/-!
# The input of the generator is closed

All types that the input of the generator mentions are builtin, or name an entity of the same input
(`GeneratorInput.Closed`). The types of parameters are builtin because no parameter is a reference,
in any schema that comes from captures. Names of entities are resolved against the keys of the
entities, and these are the names that the entities carry, so a name stands for exactly one.

The properties of an entity are its scalar properties, except for references to nothing
(`EntityData.Describes`).
-/

namespace TrafficSchema

/-! ## Closed inputs -/

/-- The types of values that are no entities. -/
def builtinTypes : List String := ["datetime", "bool", "int", "float", "str"]

namespace GeneratorInput

/-- The endpoints of a service, the latest ones among them. -/
def endpointsOf (service : ServiceData) : List EndpointData :=
  service.rawEndpoints ++ service.endpoints

/-- Whether a name is that of exactly one entity. -/
def Declares (g : GeneratorInput) (name : String) : Prop :=
  (g.entities.map (·.name)).count name = 1

/-- Every type is builtin, or the name of exactly one entity. -/
structure Closed (g : GeneratorInput) : Prop where
  parameter : ∀ service ∈ g.services, ∀ e ∈ endpointsOf service, ∀ p ∈ e.parameters,
    p.typeName ∈ builtinTypes
  builtin : ∀ e ∈ g.entities, ∀ p ∈ e.properties, p.isBuiltin = true → p.typeName ∈ builtinTypes
  referenced : ∀ e ∈ g.entities, ∀ p ∈ e.properties, p.isBuiltin = false → g.Declares p.typeName
  entityType : ∀ service ∈ g.services, ∀ name ∈ service.entityTypes, g.Declares name
  returned : ∀ service ∈ g.services, ∀ e ∈ endpointsOf service, ∀ r ∈ e.returnType.entities,
    g.Declares r.entityName

end GeneratorInput

/-! ## Types of scalars -/

theorem GeneratorInput.typeName_mem_builtinTypes {tag : Tag} (h : tag.isReference = false) :
    typeName tag ∈ builtinTypes := by
  cases tag with
  | reference name => cases h
  | none | datetime | bool | int | float | str => decide

/-- The parameters are scalar fields, each with the type of its tag. -/
theorem GeneratorInput.exists_get?_of_mem_parameters {t : ShapeTree} {p : ParameterData}
    (h : p ∈ parameters t) :
    ∃ tag, t.get? p.name = some (.scalar tag) ∧ p.typeName = typeName tag := by
  obtain ⟨⟨name, shape⟩, hmem, hp⟩ := List.mem_filterMap.1 h
  cases shape with
  | tree c => cases hp
  | scalar tag =>
    simp only at hp
    split at hp
    · cases hp
    · cases hp
      exact ⟨tag, ShapeTree.mem_entries_iff.1 hmem, rfl⟩

/-! ## References -/

/-- Whether a property is kept: a reference has to mean an entity, the one with its name or those
with its name in the singular. -/
def Tag.IsKept (names : NameSet) : Tag → Prop
  | .reference target => names.contains target ∨
      ∃ singular, target = singular ++ "s" ∧ names.contains singular
  | _ => True

/-- Whether a property is of the type that a tag stands for. A reference stands for an entity, and
means a collection if it has the name of the entity in the plural. -/
def PropertyData.HasType (p : PropertyData) : Tag → Prop
  | .reference target =>
    p.isBuiltin = false ∧ target = if p.isCollection then p.typeName ++ "s" else p.typeName
  | tag => p.isBuiltin = true ∧ p.typeName = GeneratorInput.typeName tag

namespace GeneratorInput

open Naming

theorem singular?_eq_some_iff {name singular : String} :
    singular? name = some singular ↔ name = singular ++ "s" := by
  have hconcat : name = singular ++ "s" ↔
      name.toList.reverse = 's' :: singular.toList.reverse := by
    rw [← String.toList_inj, String.toList_append, ← @List.reverse_inj _ name.toList]
    simp
  rw [hconcat]
  unfold singular?
  split
  · rename_i rest heq
    rw [heq, Option.some.injEq, List.cons.injEq, and_iff_right rfl, ← String.toList_inj,
      String.toList_ofList, ← List.reverse_inj, List.reverse_reverse]
  · rename_i hne
    exact ⟨nofun, fun heq => absurd heq (hne _)⟩

theorem filter_singular?_eq_some_iff {tag name : String} {names : NameSet} :
    (singular? tag).filter names.contains = some name ↔
      tag = name ++ "s" ∧ names.contains name := by
  rw [Option.filter_eq_some_iff, singular?_eq_some_iff]

/-- What a reference means is an entity, with its name or, if it means many, with the singular. -/
theorem of_referencedEntity?_eq_some {tag target : String} {many : Bool} {names : NameSet}
    (h : referencedEntity? tag names = some (target, many)) :
    names.contains target ∧ tag = if many then target ++ "s" else target := by
  unfold referencedEntity? at h
  cases hsingular : (singular? tag).filter names.contains with
  | some name =>
    rw [hsingular] at h
    cases h
    exact (filter_singular?_eq_some_iff.1 hsingular).symm
  | none =>
    rw [hsingular] at h
    simp only at h
    split at h
    · rename_i htag
      cases h
      exact ⟨htag, rfl⟩
    · cases h

/-- **A reference means something** if its name, or the singular of it, is that of an entity. -/
theorem isSome_referencedEntity?_iff {tag : String} {names : NameSet} :
    (referencedEntity? tag names).isSome ↔ (Tag.reference tag).IsKept names := by
  unfold referencedEntity?
  cases hsingular : (singular? tag).filter names.contains with
  | some name =>
    have hkept : (Tag.reference tag).IsKept names :=
      .inr ⟨name, filter_singular?_eq_some_iff.1 hsingular⟩
    exact ⟨fun _ => hkept, fun _ => rfl⟩
  | none =>
    have hnone : ¬ ∃ singular, tag = singular ++ "s" ∧ names.contains singular := by
      rintro ⟨singular, h⟩
      cases hsingular.symm.trans (filter_singular?_eq_some_iff.2 h)
    rw [Tag.IsKept, or_iff_left hnone]
    by_cases htag : names.contains tag <;> simp [htag]

/-! ## Properties -/

theorem propertyData?_scalar {tag : Tag} (h : tag.isReference = false) (names : NameSet)
    (key : String) : propertyData? names key (.scalar tag) =
      some ⟨key, propertyIdentifier key, typeName tag, true, false⟩ := by
  cases tag with
  | reference target => cases h
  | none | datetime | bool | int | float | str => rfl

/-- A property has the name and the type of its field, which is scalar. The type is builtin or an
entity. -/
theorem of_propertyData?_eq_some {names : NameSet} {key : String} {a : Shape} {p : PropertyData}
    (h : propertyData? names key a = some p) :
    p.name = key ∧ (∃ tag, a = .scalar tag ∧ p.HasType tag) ∧
      (p.isBuiltin = true ∧ p.typeName ∈ builtinTypes ∨
        p.isBuiltin = false ∧ names.contains p.typeName) := by
  cases a with
  | tree c => cases h
  | scalar tag =>
    cases htag : tag.isReference with
    | false =>
      rw [propertyData?_scalar htag, Option.some.injEq] at h
      rw [← h]
      refine ⟨rfl, ⟨tag, rfl, ?_⟩, .inl ⟨rfl, typeName_mem_builtinTypes htag⟩⟩
      cases tag with
      | reference target => cases htag
      | none | datetime | bool | int | float | str => exact ⟨rfl, rfl⟩
    | true =>
      cases tag with
      | reference target =>
        obtain ⟨⟨name, many⟩, hname, h⟩ := Option.bind_eq_some_iff.1 h
        cases h
        obtain ⟨hcontains, htarget⟩ := of_referencedEntity?_eq_some hname
        exact ⟨rfl, ⟨_, rfl, rfl, htarget⟩, .inr ⟨rfl, hcontains⟩⟩
      | none | datetime | bool | int | float | str => cases htag

theorem isSome_propertyData?_iff {names : NameSet} {key : String} {a : Shape} :
    (propertyData? names key a).isSome ↔ ∃ tag, a = .scalar tag ∧ tag.IsKept names := by
  cases a with
  | tree c => simp [propertyData?]
  | scalar tag =>
    cases tag with
    | reference target =>
      simp only [Shape.scalar.injEq, exists_eq_left', ← isSome_referencedEntity?_iff]
      rw [propertyData?]
      cases referencedEntity? target names <;> rfl
    | none | datetime | bool | int | float | str =>
      exact ⟨fun _ => ⟨_, rfl, trivial⟩, fun _ => rfl⟩

end GeneratorInput

/-- What the generator knows of an entity: its name and its scalar properties in the order of their
names, with their types, except for references to nothing. -/
structure EntityData.Describes (names : NameSet) (e : Entity) (d : EntityData) : Prop where
  name : d.name = e.name
  sorted : d.properties.Pairwise (·.name < ·.name)
  exists_property_iff : ∀ key, (∃ p ∈ d.properties, p.name = key) ↔
    ∃ tag, e.properties.get? key = some (.scalar tag) ∧ tag.IsKept names
  hasType : ∀ p ∈ d.properties, ∃ tag, e.properties.get? p.name = some (.scalar tag) ∧
    p.HasType tag

namespace GeneratorInput

theorem mem_properties_iff {names : NameSet} {e : Entity} {p : PropertyData} :
    p ∈ (entityData names e).properties ↔
      ∃ key a, e.properties.get? key = some a ∧ propertyData? names key a = some p := by
  simp only [entityData, List.mem_filterMap, Prod.exists, ShapeTree.mem_entries_iff]

theorem describes_entityData (names : NameSet) (e : Entity) :
    EntityData.Describes names e (entityData names e) := by
  refine ⟨rfl, ?_, fun key => ?_, fun p hp => ?_⟩
  · refine List.Pairwise.filterMap _ (fun a b hlt p hp q hq => ?_) e.properties.dict.sorted
    rw [(of_propertyData?_eq_some hp).1, (of_propertyData?_eq_some hq).1]
    exact hlt
  · constructor
    · rintro ⟨p, hp, rfl⟩
      obtain ⟨key, a, ha, hp⟩ := mem_properties_iff.1 hp
      obtain ⟨tag, rfl, hkept⟩ := isSome_propertyData?_iff.1 (Option.isSome_of_mem hp)
      rw [(of_propertyData?_eq_some hp).1]
      exact ⟨tag, ha, hkept⟩
    · rintro ⟨tag, htag, hkept⟩
      have hsome : (propertyData? names key (.scalar tag)).isSome :=
        isSome_propertyData?_iff.2 ⟨tag, rfl, hkept⟩
      obtain ⟨p, hp⟩ := Option.isSome_iff_exists.1 hsome
      exact ⟨p, mem_properties_iff.2 ⟨key, _, htag, hp⟩, (of_propertyData?_eq_some hp).1⟩
  · obtain ⟨key, a, ha, hp⟩ := mem_properties_iff.1 hp
    obtain ⟨rfl, ⟨tag, rfl, htype⟩, -⟩ := of_propertyData?_eq_some hp
    exact ⟨tag, ha, htype⟩

/-! ## Names -/

/-- The names of the entities are the keys of the schema. -/
theorem map_name_entities {s : Schema} (h : Entity.Keyed s.entities)
    (cacheable : CacheableEndpoints) :
    (ofSchema s cacheable).entities.map (·.name) = s.entities.keys := by
  rw [ofSchema, List.map_map, Dict.values, List.map_map]
  refine List.map_congr_left fun entry hentry => ?_
  exact h entry.1 entry.2 (Dict.mem_entries_iff.1 hentry)

/-- **A name of an entity is that of exactly one.** -/
theorem declares_of_contains {s : Schema} (h : Entity.Keyed s.entities)
    (cacheable : CacheableEndpoints) {name : String} (hname : s.entityNames.contains name) :
    (ofSchema s cacheable).Declares name := by
  have hmem : name ∈ s.entities.keys := by
    rw [Dict.mem_keys_iff]
    simpa [Schema.entityNames, Dict.contains] using hname
  have hnodup : s.entities.keys.Nodup :=
    List.pairwise_map.2 (s.entities.sorted.imp fun hlt => String.ne_of_lt hlt)
  rw [Declares, map_name_entities h]
  exact List.count_eq_one_of_mem hnodup hmem

/-- An entity that is returned has one of the names that were searched for. -/
theorem contains_of_mem_resolveReturnType {response : ShapeTree} {names : NameSet}
    {r : EntityReturn} (h : r ∈ (resolveReturnType response names).entities) :
    names.contains r.entityName := by
  obtain ⟨m, hm, hr⟩ := (response.describes_resolveReturnType names).exists_of_mem h
  rw [hr.entityName]
  exact (ShapeTree.mem_flatten_branches_iff.1 hm).2.entity

/-! ## Services -/

section Services

variable {s : Schema} {cacheable : CacheableEndpoints} {service : ServiceData} {d : EndpointData}

/-- The services are those of the schema. -/
theorem exists_flows_of_mem_services (h : service ∈ (ofSchema s cacheable).services) :
    ∃ name flows, s.endpoints.get? name = some flows ∧
      service = serviceData s.entityNames (cacheable.get? name) name flows := by
  obtain ⟨⟨name, flows⟩, hflows, rfl⟩ := List.mem_map.1 h
  exact ⟨name, flows, Dict.mem_entries_iff.1 hflows, rfl⟩

/-- The endpoints of a service are flows of the schema. -/
theorem exists_flow_of_mem_endpointsOf (h : service ∈ (ofSchema s cacheable).services)
    (hd : d ∈ endpointsOf service) : ∃ endpoint f, s.flow? service.name endpoint = some f ∧
      d = endpointData s.entityNames (cacheable.get? service.name) endpoint f := by
  obtain ⟨name, flows, hflows, rfl⟩ := exists_flows_of_mem_services h
  have hraw : d ∈ flows.entries.map fun entry =>
      endpointData s.entityNames (cacheable.get? name) entry.1 entry.2 := by
    rcases List.mem_append.1 hd with hd | hd
    · exact hd
    · exact (List.mem_filter.1 hd).1
  obtain ⟨⟨endpoint, f⟩, hf, rfl⟩ := List.mem_map.1 hraw
  have hflow : s.flow? name endpoint = some f := by
    rw [Schema.flow?, hflows]
    exact Dict.mem_entries_iff.1 hf
  exact ⟨endpoint, f, hflow, rfl⟩

/-- The entities that an endpoint returns are entities of the schema. -/
theorem contains_of_mem_returnType (h : service ∈ (ofSchema s cacheable).services)
    (hd : d ∈ endpointsOf service) {r : EntityReturn} (hr : r ∈ d.returnType.entities) :
    s.entityNames.contains r.entityName := by
  obtain ⟨endpoint, f, -, rfl⟩ := exists_flow_of_mem_endpointsOf h hd
  exact contains_of_mem_resolveReturnType hr

/-- The entity types of a service are returned by its endpoints. -/
theorem contains_of_mem_entityTypes (h : service ∈ (ofSchema s cacheable).services) {name : String}
    (hname : name ∈ service.entityTypes) : s.entityNames.contains name := by
  obtain ⟨d, hd, r, hr, rfl⟩ : ∃ d ∈ endpointsOf service, ∃ r ∈ d.returnType.entities,
      r.entityName = name := by
    obtain ⟨service, flows, -, rfl⟩ := exists_flows_of_mem_services h
    obtain ⟨d, hd, hr⟩ := List.mem_flatMap.1 (NameSet.mem_keys_ofNames_iff.1 hname)
    obtain ⟨r, hmem, rfl⟩ := List.mem_map.1 hr
    exact ⟨d, List.mem_append_left _ hd, r, hmem, rfl⟩
  exact contains_of_mem_returnType h hd hr

end Services

end GeneratorInput

/-! ## Derived schemas -/

namespace Schema

theorem Derived.built {s : Schema} (hs : s.Derived) (files : String → Prop) : Built files s := by
  induction hs with
  | capture h => exact .capture h
  | merge _ _ h hs ht => exact .merge hs ht h
  | mergeAll _ h ih => exact .mergeAll ih h
  | override _ _ h hs ht => exact .override hs ht h

/-- **No parameter is a reference**, in any schema that was derived from captures. -/
theorem Derived.referenceFree {s : Schema} (hs : s.Derived) : s.ForallFlows fun f =>
    f.queryParameters.ReferenceFree ∧ f.contentParameters.ReferenceFree := by
  refine hs.forallFlows_of_decode (fun config e f h => ?_) fun mode f g hf hg => ?_
  · obtain ⟨hquery, -, hcontent, -⟩ := Exchange.referenceFree_of_decode h
    exact ⟨hquery, hcontent⟩
  · exact ⟨hf.1.merge mode hg.1, hf.2.merge mode hg.2⟩

end Schema

namespace GeneratorInput

/-- The types of parameters are builtin. -/
theorem typeName_mem_of_mem_parameters {s : Schema} (hs : s.Derived)
    {cacheable : CacheableEndpoints} {service : ServiceData} {d : EndpointData} {p : ParameterData}
    (h : service ∈ (ofSchema s cacheable).services) (hd : d ∈ endpointsOf service)
    (hp : p ∈ d.parameters) : p.typeName ∈ builtinTypes := by
  obtain ⟨endpoint, f, hf, rfl⟩ := exists_flow_of_mem_endpointsOf h hd
  obtain ⟨tag, htag, htype⟩ := exists_get?_of_mem_parameters hp
  obtain ⟨hquery, hcontent⟩ := hs.referenceFree _ endpoint f hf
  have hfree : (if f.queryParameters.isEmpty then f.contentParameters
      else f.queryParameters).ReferenceFree := by
    split
    · exact hcontent
    · exact hquery
  rw [htype]
  exact typeName_mem_builtinTypes (hfree.isReference htag)

/-- **The input of the generator is closed**, and has just what the schema knows of each entity, if
the schema was derived from captures. -/
theorem closed_ofSchema {s : Schema} (hs : s.Derived) (cacheable : CacheableEndpoints) :
    (ofSchema s cacheable).Closed ∧
      List.Forall₂ (EntityData.Describes s.entityNames) s.entities.values
        (ofSchema s cacheable).entities := by
  have hkeyed : Entity.Keyed s.entities := (hs.built fun _ => False).keyed
  have hdeclares {name : String} (h : s.entityNames.contains name) :
      (ofSchema s cacheable).Declares name := declares_of_contains hkeyed cacheable h
  have hproperty {d : EntityData} {p : PropertyData} (hd : d ∈ (ofSchema s cacheable).entities)
      (hp : p ∈ d.properties) : p.isBuiltin = true ∧ p.typeName ∈ builtinTypes ∨
        p.isBuiltin = false ∧ s.entityNames.contains p.typeName := by
    obtain ⟨e, -, rfl⟩ := List.mem_map.1 hd
    obtain ⟨key, a, -, hp⟩ := mem_properties_iff.1 hp
    exact (of_propertyData?_eq_some hp).2.2
  refine ⟨⟨?_, ?_, ?_, ?_, ?_⟩, ?_⟩
  · exact fun service h d hd p hp => typeName_mem_of_mem_parameters hs h hd hp
  · intro d hd p hp hbuiltin
    rcases hproperty hd hp with ⟨-, htype⟩ | ⟨hno, -⟩
    · exact htype
    · cases hbuiltin.symm.trans hno
  · intro d hd p hp hbuiltin
    rcases hproperty hd hp with ⟨hyes, -⟩ | ⟨-, htype⟩
    · cases hbuiltin.symm.trans hyes
    · exact hdeclares htype
  · exact fun service h name hname => hdeclares (contains_of_mem_entityTypes h hname)
  · exact fun service h d hd r hr => hdeclares (contains_of_mem_returnType h hd hr)
  · refine List.forall₂_map_right_iff.2 (List.forall₂_same.2 fun e _ => ?_)
    exact describes_entityData s.entityNames e

/-- An order with an attribute, with items that are entities themselves, and with a note that is
none. -/
def shop : Exchange :=
  Schema.answered "/shop/orders?page=2"
    "<orders><order id=\"1\"><items><item sku=\"a\"/></items><note/></order></orders>"

theorem closed_ofSchema_shop : ∃ s : Schema, s.Derived ∧ (ofSchema s ∅).Closed ∧
    List.Forall₂ (EntityData.Describes s.entityNames) s.entities.values (ofSchema s ∅).entities ∧
    (ofSchema s ∅).services.map (·.entityTypes) = [["order"]] ∧
    (ofSchema s ∅).entities.map (fun d => d.properties.map fun p => (p.name, p.typeName)) =
      [[("sku", "str")], [("id", "int"), ("items", "item")]] := by
  obtain ⟨s, hs, -⟩ := captureSchema_summarizes {} [shop]
  have hread : (captureSchema {} [shop]).toOption.any fun s =>
      (ofSchema s ∅).services.map (·.entityTypes) = [["order"]] ∧
      (ofSchema s ∅).entities.map (fun d => d.properties.map fun p => (p.name, p.typeName)) =
        [[("sku", "str")], [("id", "int"), ("items", "item")]] := by decide +kernel
  rw [hs] at hread
  have hderived : s.Derived := .capture hs
  obtain ⟨hclosed, hentities⟩ := closed_ofSchema hderived ∅
  exact ⟨s, hderived, hclosed, hentities, of_decide_eq_true hread⟩

end GeneratorInput

end TrafficSchema
