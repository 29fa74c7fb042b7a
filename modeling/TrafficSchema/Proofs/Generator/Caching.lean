import TrafficSchema.Proofs.Generator.Versions

/-!
# Caching

Endpoints that clients may cache are listed by their names without a version. So all versions of an
endpoint may be cached or none (`GeneratorInput.dataVersionProperty_of_mem`).

A service counts as cacheable if any name is listed for it, also one that is not the name of an
endpoint: an endpoint that is gone, or one that was listed with its version. The service has an
endpoint that may be cached unless all names listed for it are like that
(`GeneratorInput.isCacheable_iff_exists`).
-/

namespace TrafficSchema

/-- Whether an endpoint of a service is listed, under this name. -/
def CacheableEndpoints.Lists (cacheable : CacheableEndpoints) (service endpoint : String) : Prop :=
  (cacheable.at? service endpoint).isSome

instance (cacheable : CacheableEndpoints) (service endpoint : String) :
    Decidable (cacheable.Lists service endpoint) :=
  inferInstanceAs (Decidable ((cacheable.at? service endpoint).isSome = true))

namespace GeneratorInput

variable {s : Schema} {cacheable : CacheableEndpoints} {service : ServiceData} {e : EndpointData}

/-- A service counts as cacheable if any name is listed for it. -/
theorem isCacheable_iff_lists (h : service ∈ (ofSchema s cacheable).services) :
    service.isCacheable ↔ ∃ name, cacheable.Lists service.name name := by
  obtain ⟨name, flows, -, rfl⟩ := exists_flows_of_mem_services h
  simp only [serviceData, CacheableEndpoints.Lists, Dict.at?]
  cases cacheable.get? name with
  | none => simp
  | some listed =>
    have hempty : listed.isEmpty ↔ ∀ key, listed.get? key = none := by
      rw [Dict.isEmpty_iff, Dict.eq_empty_iff]
    simp only [Option.any_some, Bool.not_eq_true', Option.bind_some, ← Option.ne_none_iff_isSome,
      ← not_forall, ← hempty, Bool.not_eq_true]

/-- The property with the version of the data is the one that is listed for the name without a
version. -/
theorem dataVersionProperty_of_mem (h : service ∈ (ofSchema s cacheable).services)
    (he : e ∈ service.rawEndpoints) :
    e.dataVersionProperty = cacheable.at? service.name e.unversionedName := by
  obtain ⟨endpoint, f, -, rfl⟩ := exists_flow_of_mem_endpointsOf h (List.mem_append_left _ he)
  rfl

/-- The name without a version is the name without the digits at its end. -/
theorem unversionedName_of_mem (h : service ∈ (ofSchema s cacheable).services)
    (he : e ∈ service.rawEndpoints) :
    e.unversionedName = String.ofList (e.name.toList.rdropWhile Char.isDigit) := by
  have hversion := endpointVersion_of_mem h he
  rw [Naming.endpointVersion_eq, Prod.mk.injEq] at hversion
  exact hversion.1.symm

/-- **What is cacheable.** An endpoint may be cached just if it is listed, whatever its version. A
service counts as cacheable just if anything is listed for it. Both agree just if one of the listed
names, should there be any, is that of an endpoint. -/
theorem isCacheable_iff_exists (h : service ∈ (ofSchema s cacheable).services) :
    (∀ e ∈ service.rawEndpoints,
      e.unversionedName = String.ofList (e.name.toList.rdropWhile Char.isDigit) ∧
      e.dataVersionProperty = cacheable.at? service.name e.unversionedName ∧
      (e.dataVersionProperty.isSome ↔ cacheable.Lists service.name e.unversionedName)) ∧
    (service.isCacheable ↔ ∃ name, cacheable.Lists service.name name) ∧
    ((service.isCacheable ↔ ∃ e ∈ service.rawEndpoints, e.dataVersionProperty.isSome) ↔
      ((∃ name, cacheable.Lists service.name name) →
        ∃ e ∈ service.rawEndpoints, cacheable.Lists service.name e.unversionedName)) := by
  have hlisted (e : EndpointData) (he : e ∈ service.rawEndpoints) :
      e.dataVersionProperty.isSome ↔ cacheable.Lists service.name e.unversionedName := by
    rw [dataVersionProperty_of_mem h he]
    exact Iff.rfl
  refine ⟨fun e he => ⟨unversionedName_of_mem h he, dataVersionProperty_of_mem h he,
    hlisted e he⟩, isCacheable_iff_lists h, ?_⟩
  have hsome : (∃ e ∈ service.rawEndpoints, e.dataVersionProperty.isSome) ↔
      ∃ e ∈ service.rawEndpoints, cacheable.Lists service.name e.unversionedName :=
    exists_congr fun e => and_congr_right (hlisted e)
  rw [isCacheable_iff_lists h, hsome]
  refine ⟨Iff.mp, fun hname => ⟨hname, ?_⟩⟩
  rintro ⟨e, -, he⟩
  exact ⟨e.unversionedName, he⟩

/-- A list of one name for the items, and of one for the users, who have no service. -/
def listedItems (name : String) : CacheableEndpoints :=
  .ofList [("Items", .ofList [(name, "ItemVersion")]),
    ("Users", .ofList [("List", "UserVersion")])]

theorem isCacheable_iff_exists_list : ∃ service,
    service ∈ (ofSchema (.ofNames "Items" ["List", "List2", "Save"])
      (listedItems "List")).services ∧
    (service.isCacheable ↔ ∃ e ∈ service.rawEndpoints, e.dataVersionProperty.isSome) ∧
    service.rawEndpoints.map (·.dataVersionProperty) =
      [some "ItemVersion", some "ItemVersion", none] := by
  have hservice : ∃ service ∈
      (ofSchema (.ofNames "Items" ["List", "List2", "Save"])
        (listedItems "List")).services,
        (∃ e ∈ service.rawEndpoints,
          (listedItems "List").Lists service.name e.unversionedName) ∧
        service.rawEndpoints.map (·.dataVersionProperty) =
          [some "ItemVersion", some "ItemVersion", none] := by decide +kernel
  obtain ⟨service, h, hlisted, hproperties⟩ := hservice
  exact ⟨service, h, (isCacheable_iff_exists h).2.2.2 fun _ => hlisted, hproperties⟩

/-- **A service can count as cacheable without an endpoint that may be cached**: a name that was
listed with its version is no endpoint's name without the version. -/
theorem not_isCacheable_iff_list : ¬ ∀ (s : Schema) (cacheable : CacheableEndpoints),
    ∀ service ∈ (ofSchema s cacheable).services,
      (service.isCacheable ↔ ∃ e ∈ service.rawEndpoints, e.dataVersionProperty.isSome) ∧
      ∀ e ∈ service.rawEndpoints,
        (e.dataVersionProperty.isSome ↔ cacheable.Lists service.name e.unversionedName) := by
  intro h
  have hservice : ∃ service ∈
      (ofSchema (.ofNames "Items" ["List2"]) (listedItems "List2")).services,
        service.isCacheable ∧ ∀ e ∈ service.rawEndpoints, ¬ e.dataVersionProperty.isSome := by
    decide +kernel
  obtain ⟨service, hservice, hcacheable, hnone⟩ := hservice
  obtain ⟨e, he, hsome⟩ := (h _ _ service hservice).1.1 hcacheable
  exact hnone e he hsome

end GeneratorInput

end TrafficSchema
