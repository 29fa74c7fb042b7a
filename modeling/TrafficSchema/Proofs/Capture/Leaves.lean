import TrafficSchema.Proofs.Capture.Observations
import TrafficSchema.Proofs.Exchange.Sources
import TrafficSchema.Proofs.Encoding.Utf8
import TrafficSchema.Proofs.Shape.Leaves

/-!
# Content parameters

The content parameters of an exchange are the leaves of its content structure
(`Exchange.contentParameters_of_decode`). In a schema both are widened on their own, over all
exchanges of an endpoint. So the content parameters are the least tree that has the leaves of all
observed structures, and never fall behind the leaves of the widened structure.

They can be ahead of them: where a structure takes the place of a scalar the leaf of the scalar is
lost in the one and not in the other (`not_contentParameters_eq_leaves`). They are the same just if
every scalar field that was observed is still found among the leaves of the widened structure, in
particular if no scalar clashes with a structure (`captureSchema_contentParameters`).
-/

namespace TrafficSchema

open Capture

variable {config : Config} {exchanges : List Exchange}

theorem Capture.contentParameters_of_mem {f : Flow} (hf : f ∈ observedFlows config exchanges) :
    f.contentParameters = f.contentStructure.leaves := by
  obtain ⟨e, -, g, hg, rfl⟩ := exists_decode_of_mem_observedFlows hf
  have hdecoded : g.contentParameters = g.contentStructure.leaves :=
    Exchange.contentParameters_of_decode hg
  exact hdecoded

/-! ## Summaries -/

namespace Schema.Summarizes

variable {s : Schema} {flows : List Flow} {entities : List Entity} {service endpoint : String}
  {f : Flow}

/-- The shapes of an endpoint are the least ones that have all that was observed. -/
theorem shape_le_iff (hs : s.Summarizes flows entities) (hf : s.flow? service endpoint = some f)
    (shape : Flow → ShapeTree)
    (hmerge : ∀ f g, shape (f.merge .widen g) = shape f ⊔ shape g) {u : ShapeTree} :
    shape f ≤ u ↔ ∀ g ∈ flows, g.isAt service endpoint → shape g ≤ u := by
  rw [hs.flow?_eq] at hf
  have hshape : reduce? (· ⊔ ·) ((flows.filter (Flow.isAt service endpoint)).map shape) =
      some (shape f) := by
    rw [reduce?_map shape hmerge, hf]
    rfl
  rw [reduce?_sup_le_iff hshape, List.forall_mem_map]
  simp only [List.mem_filter, and_imp]

variable (hs : s.Summarizes flows entities) (hf : s.flow? service endpoint = some f)
  (hflows : ∀ g ∈ flows, g.contentParameters = g.contentStructure.leaves)

include hs hf hflows

/-- The content parameters have the leaves of all observed structures and no others. -/
theorem contentParameters_le_iff {u : ShapeTree} : f.contentParameters ≤ u ↔
    ∀ g ∈ flows, g.isAt service endpoint → g.contentStructure.leaves ≤ u := by
  rw [hs.shape_le_iff hf Flow.contentParameters fun _ _ => rfl]
  exact forall₂_congr fun g hg => by rw [hflows g hg]

/-- The content parameters never fall behind the leaves of the widened structure. -/
theorem leaves_le_contentParameters : f.contentStructure.leaves ≤ f.contentParameters := by
  refine hs.of_flow? (P := fun f => f.contentStructure.leaves ≤ f.contentParameters)
    (fun g hg _ => (hflows g hg).ge) (fun f g hf hg => ?_) hf
  exact le_trans (f.contentStructure.leaves_sup_le g.contentStructure) (sup_le_sup hf hg)

/-- They are the same just if no scalar field got lost. -/
theorem contentParameters_eq_iff : f.contentParameters = f.contentStructure.leaves ↔
    ∀ g ∈ flows, g.isAt service endpoint → ∀ path name x,
      (Shape.tree g.contentStructure).at? (path ++ [name]) = some (.scalar x) →
        ShapeTree.singleton name (.scalar x) ≤ f.contentStructure.leaves := by
  simp only [← ShapeTree.leaves_le_iff]
  rw [← hs.contentParameters_le_iff hf hflows]
  have hle := hs.leaves_le_contentParameters hf hflows
  exact ⟨fun h => h.le, fun h => le_antisymm h hle⟩

/-- No scalar field gets lost where no scalar clashes with a structure. -/
theorem contentParameters_eq_of_not_clash
    (hclash : ∀ g ∈ flows, ∀ h ∈ flows, g.isAt service endpoint → h.isAt service endpoint →
      ¬ g.contentStructure.Clash h.contentStructure) :
    f.contentParameters = f.contentStructure.leaves := by
  refine le_antisymm ?_ (hs.leaves_le_contentParameters hf hflows)
  refine (hs.contentParameters_le_iff hf hflows).2 fun g hg hat => ?_
  have hle : g.contentStructure ≤ f.contentStructure :=
    (hs.shape_le_iff hf Flow.contentStructure fun _ _ => rfl).1 le_rfl g hg hat
  refine ShapeTree.leaves_mono_of_not_clash hle ?_
  refine hs.of_flow? (P := fun f => ¬ g.contentStructure.Clash f.contentStructure)
    (fun h hh hhat => hclash g hg h hh hat hhat) (fun a b ha hb hab => ?_) hf
  exact (ShapeTree.clash_of_clash_sup hab).elim ha hb

end Schema.Summarizes

/-! ## Captures -/

/-- **The content parameters in a schema** are the least tree that has the leaves of all content
structures which were observed at the endpoint. They never fall behind the leaves of the content
structure, and are the same just if every scalar field that was observed is found among these
leaves; so it is if no scalar clashes with a structure. -/
theorem captureSchema_contentParameters (config : Config) (exchanges : List Exchange) :
    ∃ s, captureSchema config exchanges = .ok s ∧
      ∀ service endpoint f, s.flow? service endpoint = some f →
        f.contentStructure.leaves ≤ f.contentParameters ∧
        (∀ u, f.contentParameters ≤ u ↔ ∀ g ∈ observedFlows config exchanges,
          g.isAt service endpoint → g.contentStructure.leaves ≤ u) ∧
        (f.contentParameters = f.contentStructure.leaves ↔
          ∀ g ∈ observedFlows config exchanges, g.isAt service endpoint → ∀ path name x,
            (Shape.tree g.contentStructure).at? (path ++ [name]) = some (.scalar x) →
              ShapeTree.singleton name (.scalar x) ≤ f.contentStructure.leaves) ∧
        ((∀ g ∈ observedFlows config exchanges, ∀ h ∈ observedFlows config exchanges,
            g.isAt service endpoint → h.isAt service endpoint →
              ¬ g.contentStructure.Clash h.contentStructure) →
          f.contentParameters = f.contentStructure.leaves) := by
  obtain ⟨s, hs, hsum⟩ := captureSchema_summarizes config exchanges
  refine ⟨s, hs, fun service endpoint f hf => ?_⟩
  have hflows : ∀ g ∈ observedFlows config exchanges,
      g.contentParameters = g.contentStructure.leaves := fun g => contentParameters_of_mem
  exact ⟨hsum.leaves_le_contentParameters hf hflows,
    fun u => hsum.contentParameters_le_iff hf hflows, hsum.contentParameters_eq_iff hf hflows,
    hsum.contentParameters_eq_of_not_clash hf hflows⟩

/-- An exchange with a JSON body. -/
def posted (members : List (String × Json.Value)) : Exchange where
  method := "POST"
  path := "/orders/save"
  requestBody := ((Json.Value.object members).text .compact).toUTF8

/-- An order with a number and a structured item. -/
def numberedOrder : Exchange :=
  posted [("id", .number (.integer 1)), ("item", .object [("name", .string "pen")])]

/-- An order with a name and another structured item. -/
def namedOrder : Exchange :=
  posted [("id", .string "A"), ("item", .object [("size", .number (.integer 2))])]

/-- An order with an item that is no structure. -/
def plainOrder : Exchange := posted [("item", .string "pen")]

theorem captureSchema_contentParameters_orders :
    ∃ s f, captureSchema {} [numberedOrder, namedOrder] = .ok s ∧
      s.flow? "orders" "save" = some f ∧
      (∀ g ∈ observedFlows {} [numberedOrder, namedOrder],
        ∀ h ∈ observedFlows {} [numberedOrder, namedOrder],
          g.isAt "orders" "save" → h.isAt "orders" "save" →
            ¬ g.contentStructure.Clash h.contentStructure) ∧
      f.contentParameters = f.contentStructure.leaves ∧
      f.contentParameters = .ofList [("id", .scalar .str), ("name", .scalar .str),
        ("size", .scalar .int)] := by
  obtain ⟨s, hs, hflow⟩ := captureSchema_contentParameters {} [numberedOrder, namedOrder]
  have hparameters : (s.flow? "orders" "save").map (·.contentParameters) =
      some (.ofList [("id", .scalar .str), ("name", .scalar .str), ("size", .scalar .int)]) := by
    rw [(summarizes_of_captureSchema hs).flow?_eq]
    decide +kernel
  obtain ⟨f, hf, hparameters⟩ := Option.map_eq_some_iff.1 hparameters
  have hclash : ∀ g ∈ observedFlows {} [numberedOrder, namedOrder],
      ∀ h ∈ observedFlows {} [numberedOrder, namedOrder],
        g.isAt "orders" "save" → h.isAt "orders" "save" →
          ¬ g.contentStructure.Clash h.contentStructure := by decide +kernel
  obtain ⟨-, -, -, heq⟩ := hflow "orders" "save" f hf
  exact ⟨s, f, hs, hf, hclash, heq hclash, hparameters⟩

/-- **Widening can lose a leaf** that the content parameters have: of an item that was seen as a
scalar and as a structure the structure has no leaf. -/
theorem not_contentParameters_eq_leaves :
    ∃ s f, captureSchema {} [plainOrder, numberedOrder] = .ok s ∧
      s.flow? "orders" "save" = some f ∧
      f.contentParameters =
        .ofList [("id", .scalar .int), ("item", .scalar .str), ("name", .scalar .str)] ∧
      f.contentStructure.leaves = .ofList [("id", .scalar .int), ("name", .scalar .str)] ∧
      f.contentParameters ≠ f.contentStructure.leaves := by
  obtain ⟨s, hs, hsum⟩ := captureSchema_summarizes {} [plainOrder, numberedOrder]
  have hflow : (s.flow? "orders" "save").map
      (fun f => (f.contentParameters, f.contentStructure.leaves)) =
      some (.ofList [("id", .scalar .int), ("item", .scalar .str), ("name", .scalar .str)],
        .ofList [("id", .scalar .int), ("name", .scalar .str)]) := by
    rw [hsum.flow?_eq]
    decide +kernel
  obtain ⟨f, hf, hfields⟩ := Option.map_eq_some_iff.1 hflow
  obtain ⟨hparameters, hleaves⟩ := Prod.mk.inj hfields
  refine ⟨s, f, hs, hf, hparameters, hleaves, ?_⟩
  rw [hparameters, hleaves]
  decide

end TrafficSchema
