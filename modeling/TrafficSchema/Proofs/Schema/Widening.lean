import TrafficSchema.Proofs.Schema.Merge

/-!
# How schemas widen

A schema widens another one if it has all its endpoints and all its entities, and none of their
shapes is lower (`Schema.WidenedBy`). Schemas that widen each other agree in everything that was
observed, but for what depends on the order of observation (`Schema.WidenedBy.antisymm`).

A summary of more observations widens a summary of fewer (`Schema.Summarizes.widenedBy`).
-/

namespace TrafficSchema

/-! ## Flows and entities -/

theorem Flow.WidenedBy.antisymm {f g : Flow} (hfg : f.WidenedBy g) (hgf : g.WidenedBy f) :
    f.observed = g.observed := by
  have hgzipped : f.responseGzipped = g.responseGzipped :=
    Bool.eq_iff_iff.2 ⟨hfg.responseGzipped, hgf.responseGzipped⟩
  refine Flow.observed_eq_iff.2 ⟨hfg.service, hfg.endpoint, ?_⟩
  simp only [Flow.shapes, hgzipped, le_antisymm hfg.queryParameters hgf.queryParameters,
    le_antisymm hfg.contentStructure hgf.contentStructure,
    le_antisymm hfg.contentParameters hgf.contentParameters,
    le_antisymm hfg.responseStructure hgf.responseStructure]

/-- Folding more flows of an endpoint widens its flow. -/
theorem Flow.exists_widenedBy {service endpoint : String} {flows flows' : List Flow}
    (hsub : flows ⊆ flows') (hflows : ∀ f ∈ flows', f.isAt service endpoint) {f : Flow}
    (hf : reduce? (merge .widen) flows = some f) :
    ∃ g, reduce? (merge .widen) flows' = some g ∧ f.WidenedBy g := by
  have hshapes : reduce? (· ⊔ ·) (flows.map shapes) = some f.shapes := by
    rw [reduce?_map shapes shapes_merge, hf]
    rfl
  obtain ⟨p, hp, hle⟩ := reduce?_sup_mono (List.map_subset shapes hsub) hshapes
  rw [reduce?_map shapes shapes_merge, Option.map_eq_some_iff] at hp
  obtain ⟨g, hg, rfl⟩ := hp
  have hfat := isAt_iff.1
    (reduce?_invariant (isAt_merge .widen) (fun a ha => hflows a (hsub ha)) hf)
  have hgat := isAt_iff.1 (reduce?_invariant (isAt_merge .widen) hflows hg)
  exact ⟨g, hg, .of_shapes_le (hfat.1.trans hgat.1.symm) (hfat.2.trans hgat.2.symm) hle⟩

/-- An entity of the same name has all properties of another one, and none is lower. -/
structure Entity.WidenedBy (a b : Entity) : Prop where
  name : a.name = b.name
  properties : a.properties ≤ b.properties

theorem Entity.WidenedBy.antisymm {a b : Entity} (hab : a.WidenedBy b) (hba : b.WidenedBy a) :
    a = b := by
  cases a
  cases b
  exact congrArg₂ Entity.mk hab.name (le_antisymm hab.properties hba.properties)

/-- Joining more discoveries of an entity widens it. -/
theorem Entity.exists_widenedBy {name : String} {entities entities' : List Entity}
    (hsub : entities ⊆ entities') (hentities : ∀ a ∈ entities', a.name = name) {a : Entity}
    (ha : reduce? (join .widen) entities = some a) :
    ∃ b, reduce? (join .widen) entities' = some b ∧ a.WidenedBy b := by
  have hjoin : ∀ a b : Entity, (a.join .widen b).properties = a.properties ⊔ b.properties :=
    fun _ _ => rfl
  have hproperties :
      reduce? (· ⊔ ·) (entities.map Entity.properties) = some a.properties := by
    rw [reduce?_map Entity.properties hjoin, ha]
    rfl
  obtain ⟨p, hp, hle⟩ := reduce?_sup_mono (List.map_subset Entity.properties hsub) hproperties
  rw [reduce?_map Entity.properties hjoin, Option.map_eq_some_iff] at hp
  obtain ⟨b, hb, rfl⟩ := hp
  have hop : ∀ a b : Entity, a.name = name → b.name = name → (a.join .widen b).name = name :=
    fun _ _ h _ => h
  have haname := reduce?_invariant hop (fun a ha => hentities a (hsub ha)) ha
  have hbname := reduce?_invariant hop hentities hb
  exact ⟨b, hb, haname.trans hbname.symm, hle⟩

/-! ## Schemas -/

/-- If each of two values, where there is one, is related to the other, and values related both
ways have the same image, there is the same image on both sides. -/
theorem map_eq_map_of_exists {α β : Type*} {r : α → α → Prop} {p : α → β} {x y : Option α}
    (hp : ∀ a b, r a b → r b a → p a = p b)
    (hxy : ∀ a, x = some a → ∃ b, y = some b ∧ r a b)
    (hyx : ∀ b, y = some b → ∃ a, x = some a ∧ r b a) : x.map p = y.map p := by
  cases x with
  | none =>
    cases y with
    | none => rfl
    | some b =>
      obtain ⟨a, ha, -⟩ := hyx b rfl
      cases ha
  | some a =>
    obtain ⟨b, rfl, hab⟩ := hxy a rfl
    obtain ⟨a', ha', hba⟩ := hyx b rfl
    cases ha'
    exact congrArg some (hp a b hab hba)

namespace Schema

/-- Another schema has all endpoints and all entities, and no shape in it is lower. -/
structure WidenedBy (s t : Schema) : Prop where
  flows : ∀ service endpoint f, s.flow? service endpoint = some f →
    ∃ g, t.flow? service endpoint = some g ∧ f.WidenedBy g
  entities : ∀ name a, s.entity? name = some a → ∃ b, t.entity? name = some b ∧ a.WidenedBy b

/-- The schema without what depends on the order of observation. -/
def observed (s : Schema) : Schema :=
  { s with endpoints := s.endpoints.map fun _ flows => flows.map fun _ f => f.observed }

theorem at?_observed (s : Schema) (service endpoint : String) :
    s.observed.endpoints.at? service endpoint = (s.flow? service endpoint).map Flow.observed :=
  Dict.at?_map (fun _ _ => Flow.observed) s.endpoints service endpoint

theorem WidenedBy.antisymm {s t : Schema} (hs : s.endpoints.Proper) (ht : t.endpoints.Proper)
    (hst : s.WidenedBy t) (hts : t.WidenedBy s) : s.observed = t.observed := by
  have hendpoints : s.observed.endpoints = t.observed.endpoints := by
    refine (hs.map fun _ _ => Flow.observed).ext_at? (ht.map fun _ _ => Flow.observed)
      fun service endpoint => ?_
    change s.observed.endpoints.at? service endpoint = t.observed.endpoints.at? service endpoint
    rw [at?_observed, at?_observed]
    exact map_eq_map_of_exists (fun _ _ => Flow.WidenedBy.antisymm)
      (hst.flows service endpoint) (hts.flows service endpoint)
  have hentities : s.entities = t.entities := by
    ext name : 1
    have hname := map_eq_map_of_exists (p := id) (fun _ _ => Entity.WidenedBy.antisymm)
      (hst.entities name) (hts.entities name)
    rw [Option.map_id] at hname
    exact hname
  exact congrArg₂ Schema.mk hendpoints hentities

/-- More observations widen the summary. -/
theorem Summarizes.widenedBy {s t : Schema} {flows flows' : List Flow}
    {entities entities' : List Entity} (hs : s.Summarizes flows entities)
    (ht : t.Summarizes flows' entities') (hflows : flows ⊆ flows')
    (hentities : entities ⊆ entities') : s.WidenedBy t := by
  constructor
  · intro service endpoint f hf
    have hf' := (hs.flow?_eq service endpoint).symm.trans hf
    obtain ⟨g, hg, hfg⟩ := Flow.exists_widenedBy (List.filter_subset _ hflows)
      (fun f hf => (List.mem_filter.1 hf).2) hf'
    exact ⟨g, (ht.flow?_eq service endpoint).trans hg, hfg⟩
  · intro name a ha
    have ha' := (hs.get?_entities name).symm.trans ha
    obtain ⟨b, hb, hab⟩ := Entity.exists_widenedBy (List.filter_subset _ hentities)
      (fun a ha => of_decide_eq_true (List.mem_filter.1 ha).2) ha'
    exact ⟨b, (ht.get?_entities name).trans hb, hab⟩

end Schema

end TrafficSchema
