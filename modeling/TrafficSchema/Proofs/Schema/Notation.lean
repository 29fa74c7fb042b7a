import TrafficSchema.Proofs.Entity.Collect
import TrafficSchema.Proofs.Flow.Notation
import TrafficSchema.Schema.Notation

/-!
# Reading written schemas

A schema file does not hold everything: entities lose their names, and flows their references to
exchanges. The names come back from the keys, so nothing of the contract is lost if every entity
stands under its own name, and no flow without a name stands under a key that has one. If the
file is not nested too deep either, the schema is storable (`Schema.Storable`), and reading its
file gives it back without the references to exchanges (`Schema.ofText_toText`).

Whatever was read from a file is storable, and has no references to exchanges
(`Schema.of_ofText_eq_ok`). So writing it and reading it again changes nothing.
-/

namespace TrafficSchema

open Json

namespace Schema

/-! ## Nesting -/

theorem endpointsJson_eq (endpoints : Endpoints) :
    endpointsJson endpoints = Value.ofDict (Value.ofDict Flow.toJson) endpoints := rfl

theorem entitiesJson_eq (entities : Dict Entity) :
    entitiesJson entities = Value.ofDict (fun e => e.properties.toJson) entities := rfl

theorem numberFree_toJson (s : Schema) : s.toJson.numberFree := by
  have hendpoints : (endpointsJson s.endpoints).numberFree := by
    rw [endpointsJson_eq]
    refine Value.numberFree_ofDict fun service flows _ => ?_
    exact Value.numberFree_ofDict fun endpoint f _ => f.numberFree_toJson
  have hentities : (entitiesJson s.entities).numberFree := by
    rw [entitiesJson_eq]
    exact Value.numberFree_ofDict fun name e _ => e.properties.numberFree_toJson
  rw [toJson, Value.numberFree, Value.membersNumberFree_iff]
  simp [hendpoints, hentities]

/-- The nesting of a schema is that of its flows and of the properties of its entities. -/
theorem depth_toJson_le_iff {n : Nat} {s : Schema} :
    s.toJson.depth ≤ n + 4 ↔ (s.endpoints.Forall fun flows => flows.Forall (Flow.TreesWithin n)) ∧
      s.entities.Forall fun e => e.properties.toJson.depth ≤ n + 2 := by
  have hendpoints : (endpointsJson s.endpoints).depth ≤ n + 3 ↔
      s.endpoints.Forall fun flows => flows.Forall (Flow.TreesWithin n) := by
    simp only [endpointsJson_eq, Value.depth_ofDict_le_iff, Flow.depth_toJson_le_iff]
  rw [toJson, Value.depth, Nat.add_le_add_iff_right, Value.membersDepth_le_iff]
  simp only [List.forall_mem_cons, hendpoints, entitiesJson_eq, Value.depth_ofDict_le_iff]
  simp

/-! ## Reading what was written -/

/-- A schema that survives being written to a file. -/
structure Storable (s : Schema) : Prop where
  /-- Every entity stands under its own name. -/
  keyed : Entity.Keyed s.entities
  /-- A flow says its service and its endpoint, unless the key says nothing either. -/
  named : ∀ service endpoint f, s.flow? service endpoint = some f →
    (f.service = "" → service = "") ∧ (f.endpoint = "" → endpoint = "")
  /-- The file is not nested deeper than can be read. -/
  depth : s.toJson.depth ≤ Node.maxDepth

theorem nodup_jsonFields : (Document.jsonFields.map (·.name)).Nodup := by
  simp [Document.jsonFields]

/-- What a written schema is decoded to, but for the names that come back from the keys. -/
theorem toRecord_toJson {n : Nat} {s : Schema} (h : s.toJson.depth ≤ n + 4) :
    s.toJson.toNode.toRecord Document.jsonFields {} (n + 4) =
      .ok ⟨s.endpoints.map fun _ flows => flows.map fun _ f => f.contract,
        s.entities.map fun _ e => e.properties⟩ := by
  obtain ⟨hflows, hproperties⟩ := depth_toJson_le_iff.1 h
  have hnodes : s.toJson.toNode = .object (List.zipWith
      (fun field node => (some field.name, node)) Document.jsonFields
      [(endpointsJson s.endpoints).toNode, (entitiesJson s.entities).toNode]) := by
    simp [toJson, Value.toNode, Value.membersToNodes, Document.jsonFields]
  have hendpoints : (endpointsJson s.endpoints).toNode.toDict
      (fun depth node => node.toDict Flow.ofNode depth) (n + 3) =
        .ok (s.endpoints.map fun _ flows => flows.map fun _ f => f.contract) := by
    rw [endpointsJson_eq]
    refine Node.toDict_ofDict fun service flows hs => ?_
    refine Node.toDict_ofDict fun endpoint f he => ?_
    exact Flow.ofNode_toJson (hflows service flows hs endpoint f he)
  have hentities : (entitiesJson s.entities).toNode.toDict ShapeTree.ofNode (n + 3) =
      .ok (s.entities.map fun _ e => e.properties) := by
    rw [entitiesJson_eq]
    refine Node.toDict_ofDict fun name e he => ?_
    exact ShapeTree.ofNode_toJson (hproperties name e he)
  rw [endpointsJson_eq] at hnodes hendpoints
  rw [entitiesJson_eq] at hnodes hentities
  rw [hnodes, Node.toRecord_zipWith nodup_jsonFields {} (n + 3) (Nat.le_refl _)]
  simp only [Document.jsonFields, Node.itemsToRecord, Node.orDefault_ofDict, hendpoints, hentities]
  rfl

theorem fillNames_contract {service endpoint : String} {f : Flow}
    (h : (f.service = "" → service = "") ∧ (f.endpoint = "" → endpoint = "")) :
    fillNames service endpoint f.contract = f.contract := by
  have hname {name key : String} (h : name = "" → key = "") :
      (if name = "" then key else name) = name := by
    split
    · rename_i hnone
      rw [h hnone, hnone]
    · rfl
  unfold fillNames
  congr 1
  · exact hname h.1
  · exact hname h.2

/-- The keys give all names back. -/
theorem ofDocument_eq_contract {s : Schema} (h : s.Storable) :
    ofDocument ⟨s.endpoints.map fun _ flows => flows.map fun _ f => f.contract,
      s.entities.map fun _ e => e.properties⟩ = s.contract := by
  have hendpoints : (s.endpoints.map fun _ flows => flows.map fun _ f => f.contract).map
      (fun service flows => flows.map fun endpoint f => fillNames service endpoint f) =
        s.endpoints.map fun _ flows => flows.map fun _ f => f.contract := by
    rw [Dict.map_map]
    refine Dict.map_congr fun service flows hflows => ?_
    rw [Dict.map_map]
    refine Dict.map_congr fun endpoint f hf => ?_
    have hflow : s.flow? service endpoint = some f := by
      simp only [flow?, hflows]
      exact hf
    exact fillNames_contract (h.named service endpoint f hflow)
  have hentities : (s.entities.map fun _ e => e.properties).map
      (fun name properties => (⟨name, properties⟩ : Entity)) = s.entities := by
    rw [Dict.map_map]
    refine Eq.trans (Dict.map_congr fun name e he => ?_) (Dict.map_id s.entities)
    have hname : e.name = name := h.keyed name e he
    rw [← hname]
  exact congrArg₂ Schema.mk hendpoints hentities

/-- **Reading the file of a storable schema gives it back** without the references to exchanges,
in whichever layout it was written. -/
theorem ofText_toText {s : Schema} (h : s.Storable) (layout : Layout) :
    ofText (s.toText layout) = .ok s.contract := by
  rw [ofText, toText, Value.decodeText_text s.numberFree_toJson, ofNode, Node.maxDepth,
    toRecord_toJson h.depth]
  exact congrArg Except.ok (ofDocument_eq_contract h)

/-- References to exchanges are not written. -/
theorem toJson_contract (s : Schema) : s.contract.toJson = s.toJson := by
  have hendpoints : endpointsJson s.contract.endpoints = endpointsJson s.endpoints := by
    have hflows (flows : Dict Flow) :
        Value.ofDict Flow.toJson (flows.map fun _ f => f.contract) =
          Value.ofDict Flow.toJson flows := Value.ofDict_map Flow.toJson Flow.contract flows
    rw [endpointsJson_eq, endpointsJson_eq, contract, Value.ofDict_map]
    simp only [hflows]
  rw [toJson, toJson, hendpoints]
  rfl

theorem toText_contract (s : Schema) (layout : Layout) :
    s.contract.toText layout = s.toText layout := by
  rw [toText, toText, toJson_contract]

theorem contract_contract (s : Schema) : s.contract.contract = s.contract := by
  simp only [contract, Dict.map_map]
  rfl

theorem contractEq_iff {s t : Schema} : s.contractEq t ↔ s.contract = t.contract := beq_iff_eq

/-! ## Schemas that were read -/

/-- What a document holds is not nested deeper than is allowed, and refers to no exchange. -/
def Document.Within (n : Nat) (d : Document) : Prop :=
  (d.endpoints.Forall fun flows => flows.Forall (Flow.Within n)) ∧
    d.entities.Forall fun t => t.toJson.depth ≤ n + 2

theorem within_of_toRecord {n : Nat} {node : Node} {d : Document}
    (h : node.toRecord Document.jsonFields {} (n + 5) = .ok d) : d.Within (n + 1) := by
  refine Node.toRecord_invariant ⟨Dict.forall_empty _, Dict.forall_empty _⟩ ?_ h
  simp only [Document.jsonFields, List.forall_mem_cons]
  refine ⟨?_, ?_, nofun⟩
  · rintro node d d' h ⟨-, hentities⟩
    obtain ⟨endpoints, hendpoints, h⟩ := bind_eq_ok_iff.1 h
    cases h
    refine ⟨?_, hentities⟩
    obtain rfl | hendpoints := Node.orDefault_eq_ok hendpoints
    · exact Dict.forall_empty _
    · exact Node.toDict_forall (fun _ _ => Node.toDict_forall fun _ _ => Flow.within_of_ofNode)
        hendpoints
  · rintro node d d' h ⟨hendpoints, -⟩
    obtain ⟨entities, hentities, h⟩ := bind_eq_ok_iff.1 h
    cases h
    refine ⟨hendpoints, ?_⟩
    obtain rfl | hentities := Node.orDefault_eq_ok hentities
    · exact Dict.forall_empty _
    · exact Node.toDict_forall (fun _ _ => ShapeTree.depth_le_of_ofNode) hentities

theorem fillNames_eq_empty {service endpoint : String} {f : Flow} :
    ((fillNames service endpoint f).service = "" → service = "") ∧
      ((fillNames service endpoint f).endpoint = "" → endpoint = "") := by
  have hname {name key : String} (h : (if name = "" then key else name) = "") : key = "" := by
    split at h
    · exact h
    · contradiction
  exact ⟨hname, hname⟩

/-- Filling in names makes a document storable. A tree may be nested as deep as is left of the
nesting that can be read below the schema, its endpoints, the service and the flow. -/
theorem storable_ofDocument {d : Document} (h : d.Within 123) : (ofDocument d).Storable := by
  obtain ⟨hflows, hproperties⟩ := h
  refine ⟨?_, ?_, depth_toJson_le_iff.2 ⟨?_, ?_⟩⟩
  · intro name e he
    rw [ofDocument, Dict.get?_map, Option.map_eq_some_iff] at he
    obtain ⟨properties, -, rfl⟩ := he
    rfl
  · intro service endpoint f hf
    have hat : (d.endpoints.at? service endpoint).map (fillNames service endpoint) = some f :=
      (Dict.at?_map fillNames d.endpoints service endpoint).symm.trans hf
    obtain ⟨g, -, rfl⟩ := Option.map_eq_some_iff.1 hat
    exact fillNames_eq_empty
  · refine Dict.forall_map.2 fun service flows hs => ?_
    refine Dict.forall_map.2 fun endpoint f he => ?_
    exact (hflows service flows hs endpoint f he).1
  · exact Dict.forall_map.2 hproperties

theorem contract_ofDocument {n : Nat} {d : Document} (h : d.Within n) :
    (ofDocument d).contract = ofDocument d := by
  have hendpoints : (ofDocument d).contract.endpoints = (ofDocument d).endpoints := by
    simp only [contract, ofDocument, Dict.map_map]
    refine Dict.map_congr fun service flows hs => ?_
    refine Dict.map_congr fun endpoint f he => ?_
    have hfilled : (fillNames service endpoint f).Within n := h.1 service flows hs endpoint f he
    exact hfilled.contract_eq
  exact congrArg₂ Schema.mk hendpoints rfl

/-- Reads the contents of a schema file. -/
def Document.ofText (text : String) : Decoded Document :=
  decodeText (fun node => node.toRecord jsonFields {} Node.maxDepth) text

/-- A schema that was read stands for the contents of its file. -/
theorem exists_document_of_ofText {text : String} {s : Schema} (h : ofText text = .ok s) :
    ∃ d, Document.ofText text = .ok d ∧ s = ofDocument d := by
  unfold ofText at h
  split at h
  · rename_i t htext
    cases h
    obtain ⟨t, ht, hcomplete⟩ := bind_eq_ok_iff.1 htext
    obtain ⟨d, hd, ht⟩ := bind_eq_ok_iff.1 ht
    cases ht
    split at hcomplete
    · rename_i hdocument
      cases hcomplete
      exact ⟨d, bind_eq_ok_iff.2 ⟨d, hd, if_pos hdocument⟩, rfl⟩
    · cases hcomplete
  · cases h

theorem Document.within_of_ofText {text : String} {d : Document}
    (h : Document.ofText text = .ok d) : d.Within 123 := by
  obtain ⟨d', hd, hcomplete⟩ := bind_eq_ok_iff.1 h
  split at hcomplete
  · cases hcomplete
    exact within_of_toRecord hd
  · cases hcomplete

/-- **A schema that was read can be written**, and it refers to no exchange. -/
theorem of_ofText_eq_ok {text : String} {s : Schema} (h : ofText text = .ok s) :
    s.Storable ∧ s.contract = s := by
  obtain ⟨d, hd, rfl⟩ := exists_document_of_ofText h
  have hwithin := Document.within_of_ofText hd
  exact ⟨storable_ofDocument hwithin, contract_ofDocument hwithin⟩

/-- A schema whose entities and flows carry their names is read back from its file just if the
file is not nested deeper than can be read. -/
theorem exists_ofText_toText_iff {s : Schema} (hkeyed : Entity.Keyed s.entities)
    (hnamed : ∀ service endpoint f, s.flow? service endpoint = some f →
      (f.service = "" → service = "") ∧ (f.endpoint = "" → endpoint = "")) (layout : Layout) :
    (∃ t, ofText (s.toText layout) = .ok t ∧ t.contractEq s) ↔
      s.toJson.depth ≤ Node.maxDepth := by
  constructor
  · rintro ⟨t, ht, hcontract⟩
    have hdepth := (of_ofText_eq_ok ht).1.depth
    rwa [← toJson_contract, contractEq_iff.1 hcontract, toJson_contract] at hdepth
  · intro hdepth
    have hread := ofText_toText ⟨hkeyed, hnamed, hdepth⟩ layout
    exact ⟨s.contract, hread, contractEq_iff.2 s.contract_contract⟩

/-- **Reading a schema file undoes writing it.** A storable schema is read back from its file but
for the references to exchanges, and the schema that was read is written as the same text. Two
storable schemas have the same text just when they differ in nothing else than these references.
Every schema that was read is storable, however its file was spelled, so writing it and reading
it again gives the same schema. -/
theorem file_roundTrip :
    (∀ s : Schema, s.Storable → ∀ layout, ∃ t, ofText (s.toText layout) = .ok t ∧
      t.contractEq s ∧ ∀ layout, t.toText layout = s.toText layout) ∧
    (∀ s t : Schema, s.Storable → t.Storable → ∀ layout,
      s.toText layout = t.toText layout ↔ s.contractEq t) ∧
    (∀ text s, ofText text = .ok s → s.Storable ∧ ∀ layout, ofText (s.toText layout) = .ok s) := by
  refine ⟨?_, ?_, ?_⟩
  · intro s hs layout
    exact ⟨s.contract, ofText_toText hs layout, contractEq_iff.2 s.contract_contract,
      s.toText_contract⟩
  · intro s t hs ht layout
    rw [contractEq_iff]
    constructor
    · intro htext
      have hread := ofText_toText hs layout
      rw [htext, ofText_toText ht layout, Except.ok.injEq] at hread
      exact hread.symm
    · intro hcontract
      rw [← toText_contract s, hcontract, toText_contract t]
  · intro text s htext
    obtain ⟨hs, hcontract⟩ := of_ofText_eq_ok htext
    refine ⟨hs, fun layout => ?_⟩
    rw [ofText_toText hs layout, hcontract]

/-- A schema with one endpoint, which was seen once, and one entity. -/
def orders : Schema :=
  (({} : Schema).insertFlow
      { service := "orders", endpoint := "list",
        queryParameters := .singleton "page" (.scalar .int), capture := some "17" }).insertEntity
    ⟨"order", .singleton "id" (.scalar .int)⟩

theorem storable_orders : orders.Storable := by
  refine ⟨?_, ?_, by decide⟩
  · intro key e he
    simp only [orders, insertEntity, putEntity, insertFlow, putFlow, Dict.get?_insert,
      Dict.get?_empty, Option.ite_none_right_eq_some, Option.some.injEq] at he
    obtain ⟨rfl, rfl⟩ := he
    rfl
  · intro service endpoint f hf
    have hat : orders.endpoints.at? service endpoint = some f := hf
    simp only [orders, insertEntity, putEntity, insertFlow, putFlow, Dict.at?, Dict.get?_upsert,
      Dict.get?_empty, Option.bind_eq_some_iff, Option.ite_none_right_eq_some,
      Option.some.injEq] at hat
    obtain ⟨flows, ⟨rfl, rfl⟩, hat⟩ := hat
    simp only [Option.getD_none, Dict.get?_insert, Dict.get?_empty, Option.ite_none_right_eq_some,
      Option.some.injEq] at hat
    obtain ⟨rfl, rfl⟩ := hat
    simp

theorem file_roundTrip_orders :
    orders.Storable ∧ orders.contract.Storable ∧
      (∃ t, ofText (orders.toText .indented) = .ok t ∧ t.contractEq orders ∧
        ∀ layout, t.toText layout = orders.toText layout) ∧
      (orders.toText .compact = orders.contract.toText .compact ↔
        orders.contractEq orders.contract) ∧
      ofText (orders.toText .compact) = .ok orders.contract ∧
      ofText (orders.contract.toText .indented) = .ok orders.contract := by
  have hread := ofText_toText storable_orders .compact
  obtain ⟨hstorable, hagain⟩ := file_roundTrip.2.2 _ _ hread
  exact ⟨storable_orders, hstorable, file_roundTrip.1 orders storable_orders .indented,
    file_roundTrip.2.1 orders orders.contract storable_orders hstorable .compact, hread,
    hagain .indented⟩

end Schema

end TrafficSchema
