import TrafficSchema.Proofs.Entity.Collect
import TrafficSchema.Proofs.Flow.Group
import TrafficSchema.Schema.Merge

/-!
# What a merged schema holds

Schemas are merged pair of keys by pair of keys: their flows by `Schema.at?_combineEndpoints`,
and their entities, if no key holds two names, by `Schema.combineEntities_eq`.

A schema summarizes observations (`Schema.Summarizes`) if the flow of every endpoint is the fold
of its flows, and every entity the join of its discoveries. Observations determine their summary
(`Schema.Summarizes.unique`), and joining the summaries of two runs summarizes one run after the
other (`Schema.Summarizes.merge`).
-/

namespace TrafficSchema

namespace Schema

/-! ## Merging key by key -/

theorem at?_combineEndpoints (mode : MergeMode) (d e : Endpoints) (service endpoint : String) :
    (combineEndpoints mode d e).at? service endpoint =
      Dict.combine? (Flow.merge mode) (d.at? service endpoint) (e.at? service endpoint) :=
  Dict.at?_unionWith (Flow.merge mode) d e service endpoint

theorem combineEntity_eq (mode : MergeMode) (entities : Dict Entity) (key : String) (e : Entity)
    (h : ∀ old, entities.get? key = some old → old.name = e.name) :
    ∃ merged, combineEntity mode entities key e = .ok merged ∧
      ∀ k, merged.get? k =
        if k = key then Dict.combine? (Entity.join mode) (entities.get? key) (some e)
        else entities.get? k := by
  unfold combineEntity
  cases hold : entities.get? key with
  | none => exact ⟨entities.insert key e, rfl, fun k => by simp⟩
  | some old =>
    simp only [Entity.merge_of_name_eq mode (h old hold)]
    exact ⟨entities.insert key (old.join mode e), rfl, fun k => by simp⟩

/-- Entities merge key by key if no key holds entities of different names. -/
theorem combineEntities_eq {mode : MergeMode} {d e : Dict Entity}
    (h : ∀ key a b, d.get? key = some a → e.get? key = some b → a.name = b.name) :
    combineEntities mode d e = .ok (d.unionWith (Entity.join mode) e) := by
  suffices hloop : ∃ merged, combineEntities mode d e = .ok merged ∧
      ∀ key, merged.get? key =
        Dict.combine? (Entity.join mode) (d.get? key) (e.get? key) by
    obtain ⟨merged, hmerged, hget⟩ := hloop
    have : merged = d.unionWith (Entity.join mode) e := Dict.ext_get? fun key => by
      rw [hget, Dict.get?_unionWith]
    rw [hmerged, this]
  obtain ⟨l, hl⟩ := e
  change ∀ key a b, d.get? key = some a → Dict.findEntry key l = some b → a.name = b.name at h
  change ∃ merged, l.foldlM (fun acc e => combineEntity mode acc e.1 e.2) d = .ok merged ∧
    ∀ key, merged.get? key =
      Dict.combine? (Entity.join mode) (d.get? key) (Dict.findEntry key l)
  induction l generalizing d with
  | nil => exact ⟨d, rfl, fun key => by simp [Dict.findEntry]⟩
  | cons head l ih =>
    obtain ⟨k, b⟩ := head
    obtain ⟨hk, hl⟩ := List.pairwise_cons.1 hl
    have hnone : Dict.findEntry k l = none := Dict.findEntry_eq_none hk
    obtain ⟨d', hd', hget'⟩ := combineEntity_eq mode d k b fun a ha =>
      h k a b ha (by simp [Dict.findEntry])
    -- the keys still to come are greater, so what they hold has not changed
    obtain ⟨merged, hmerged, hget⟩ := ih (d := d') hl fun key a b' ha hb' => by
      have hne : key ≠ k := by
        rintro rfl
        rw [hnone] at hb'
        cases hb'
      rw [hget', if_neg hne] at ha
      exact h key a b' ha (by rwa [Dict.findEntry, if_neg hne])
    refine ⟨merged, ?_, fun key => ?_⟩
    · rw [List.foldlM_cons, hd']
      exact hmerged
    · rw [hget, hget', Dict.findEntry]
      by_cases hkey : key = k
      · simp [hkey, hnone]
      · simp [hkey]

/-! ## All flows -/

/-- All flows of a schema have a property. -/
def ForallFlows (P : Flow → Prop) (s : Schema) : Prop :=
  ∀ service endpoint f, s.flow? service endpoint = some f → P f

theorem forallFlows_empty {P : Flow → Prop} : ForallFlows P {} := nofun

theorem forallFlows_iff {P : Flow → Prop} {s : Schema} :
    s.ForallFlows P ↔ s.endpoints.Forall fun flows => flows.Forall P := by
  constructor
  · exact fun h service flows hs endpoint f he =>
      h service endpoint f (Option.bind_eq_some_iff.2 ⟨flows, hs, he⟩)
  · intro h service endpoint f hf
    obtain ⟨flows, hs, he⟩ := Option.bind_eq_some_iff.1 hf
    exact h service flows hs endpoint f he

/-! ## Summaries of observations -/

/-- What a schema says is the fold of some flows and some entities. -/
structure Summarizes (s : Schema) (flows : List Flow) (entities : List Entity) : Prop where
  proper : s.endpoints.Proper
  at?_endpoints : ∀ service endpoint, s.endpoints.at? service endpoint =
    reduce? (Flow.merge .widen) (flows.filter (Flow.isAt service endpoint))
  get?_entities : ∀ name, s.entities.get? name =
    reduce? (Entity.join .widen) (entities.filter (·.name = name))

namespace Summarizes

variable {s t : Schema} {flows flows' : List Flow} {entities entities' : List Entity}

theorem unique (hs : s.Summarizes flows entities) (ht : t.Summarizes flows entities) : s = t := by
  have hendpoints : s.endpoints = t.endpoints :=
    hs.proper.ext_at? ht.proper fun service endpoint => by
      rw [hs.at?_endpoints, ht.at?_endpoints]
  have hentities : s.entities = t.entities :=
    Dict.ext_get? fun name => by rw [hs.get?_entities, ht.get?_entities]
  cases s
  cases t
  exact congrArg₂ Schema.mk hendpoints hentities

theorem nil : ({} : Schema).Summarizes [] [] :=
  ⟨Dict.proper_empty, fun _ _ => rfl, fun _ => rfl⟩

/-- The flow of an endpoint is the fold of its flows. -/
theorem flow?_eq (hs : s.Summarizes flows entities) (service endpoint : String) :
    s.flow? service endpoint =
      reduce? (Flow.merge .widen) (flows.filter (Flow.isAt service endpoint)) :=
  hs.at?_endpoints service endpoint

theorem isEmpty_endpoints_iff (hs : s.Summarizes flows entities) :
    s.endpoints.isEmpty ↔ flows = [] := by
  rw [hs.proper.isEmpty_iff]
  constructor
  · intro h
    refine List.eq_nil_iff_forall_not_mem.2 fun f hf => ?_
    have hat := h f.service f.endpoint
    rw [hs.at?_endpoints, reduce?_eq_none_iff, List.filter_eq_nil_iff] at hat
    exact hat f hf (by simp)
  · rintro rfl service endpoint
    rw [hs.at?_endpoints]
    rfl

/-- What holds of all entities of a name that were observed, and is kept when they are joined, holds
of the entity with this name. -/
theorem of_entity? {P : Entity → Prop} (hs : s.Summarizes flows entities) {name : String}
    (hentities : ∀ a ∈ entities, a.name = name → P a)
    (hjoin : ∀ a b, P a → P b → P (a.join .widen b)) {e : Entity}
    (he : s.entity? name = some e) : P e := by
  have hget := (hs.get?_entities name).symm.trans he
  refine reduce?_invariant hjoin (fun a ha => ?_) hget
  obtain ⟨hmem, hname⟩ := List.mem_filter.1 ha
  exact hentities a hmem (of_decide_eq_true hname)

theorem keyed (hs : s.Summarizes flows entities) : Entity.Keyed s.entities :=
  fun key _ => hs.of_entity? (P := fun a => a.name = key) (fun _ _ hname => hname)
    fun _ _ hname _ => hname

/-- What holds of all flows that were observed at an endpoint, and is kept when they are folded,
holds of the flow of the endpoint. -/
theorem of_flow? {P : Flow → Prop} (hs : s.Summarizes flows entities) {service endpoint : String}
    (hflows : ∀ g ∈ flows, g.isAt service endpoint → P g)
    (hmerge : ∀ f g, P f → P g → P (f.merge .widen g)) {f : Flow}
    (hf : s.flow? service endpoint = some f) : P f := by
  rw [hs.flow?_eq] at hf
  refine reduce?_invariant hmerge (fun g hg => ?_) hf
  obtain ⟨hmem, hat⟩ := List.mem_filter.1 hg
  exact hflows g hmem hat

/-- What holds of all observed flows, and is kept when they are folded, holds of the summary. -/
theorem forallFlows {P : Flow → Prop} (hs : s.Summarizes flows entities)
    (hflows : ∀ f ∈ flows, P f) (hmerge : ∀ f g, P f → P g → P (f.merge .widen g)) :
    s.ForallFlows P :=
  fun _ _ _ => hs.of_flow? (fun g hg _ => hflows g hg) hmerge

/-- A flow carries the names it stands under. -/
theorem isAt_of_flow? (hs : s.Summarizes flows entities) {service endpoint : String} {f : Flow}
    (hf : s.flow? service endpoint = some f) : f.isAt service endpoint :=
  hs.of_flow? (P := fun f => f.isAt service endpoint) (fun _ _ hat => hat) (Flow.isAt_merge .widen)
    hf

/-- There is a flow only for endpoints that were observed. -/
theorem exists_isAt_of_flow? (hs : s.Summarizes flows entities) {service endpoint : String}
    {f : Flow} (hf : s.flow? service endpoint = some f) :
    ∃ g ∈ flows, g.isAt service endpoint := by
  rw [hs.flow?_eq] at hf
  by_contra hnone
  have hnil : flows.filter (Flow.isAt service endpoint) = [] :=
    List.filter_eq_nil_iff.2 fun g hg hat => hnone ⟨g, hg, hat⟩
  rw [hnil] at hf
  cases hf

/-- Keys that both schemas have do not clash, so the schemas can be combined. -/
theorem combine (hs : s.Summarizes flows entities) (ht : t.Summarizes flows' entities') :
    ∃ u, Schema.combine .widen s t = .ok u ∧
      u.Summarizes (flows ++ flows') (entities ++ entities') := by
  have hnames : ∀ key a b, s.entities.get? key = some a → t.entities.get? key = some b →
      a.name = b.name := by
    intro key a b ha hb
    rw [hs.keyed key a ha, ht.keyed key b hb]
  refine ⟨⟨combineEndpoints .widen s.endpoints t.endpoints,
    s.entities.unionWith (Entity.join .widen) t.entities⟩, ?_, ?_, ?_, ?_⟩
  · rw [Schema.combine, combineEntities_eq hnames]
    rfl
  · exact hs.proper.unionWith ht.proper
  · intro service endpoint
    rw [at?_combineEndpoints, hs.at?_endpoints, ht.at?_endpoints, List.filter_append,
      reduce?_append]
  · intro name
    rw [Dict.get?_unionWith, hs.get?_entities, ht.get?_entities, List.filter_append,
      reduce?_append]

/-- **Joining the summaries of two runs summarizes one run after the other**, provided that
entities are only found in flows. -/
theorem merge (hs : s.Summarizes flows entities) (ht : t.Summarizes flows' entities')
    (hfound : flows = [] → entities = []) (hfound' : flows' = [] → entities' = []) :
    ∃ u, Schema.merge s t = .ok u ∧ u.Summarizes (flows ++ flows') (entities ++ entities') := by
  unfold Schema.merge
  by_cases ht' : t.endpoints.isEmpty
  · have hnil := ht.isEmpty_endpoints_iff.1 ht'
    rw [if_pos ht', hnil, hfound' hnil, List.append_nil, List.append_nil]
    exact ⟨s, rfl, hs⟩
  · rw [if_neg ht']
    by_cases hs' : s.endpoints.isEmpty
    · have hnil := hs.isEmpty_endpoints_iff.1 hs'
      rw [if_pos hs', hnil, hfound hnil, List.nil_append, List.nil_append]
      exact ⟨t, rfl, ht⟩
    · rw [if_neg hs']
      exact hs.combine ht

end Summarizes

end Schema

end TrafficSchema
