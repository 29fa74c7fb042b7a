import TrafficSchema.Proofs.Capture.Height
import TrafficSchema.Proofs.Exchange.RequestBody
import TrafficSchema.Proofs.Schema.Notation
import TrafficSchema.Proofs.Schema.Widening

/-!
# Reading the files of captures

A schema file puts four levels around the trees of a flow: the schema, its endpoints, the service
and the flow. The default limit on elements keeps responses, and request bodies in XML, far below
what can be read. But a request body in JSON may be nested as deep as a file, and then its shape
does not fit into one.

The flows of a summary are nested as deep as those that were observed
(`Schema.Summarizes.treesWithin_iff`). So the file of a capture can be read back just if no request
body has a shape of more than 123 levels (`captureSchema_readable_iff`). A request body of 124
levels can be read itself, but the file of its capture cannot (`not_readable_nestedRequest`).
-/

namespace TrafficSchema

open Json

/-! ## The nesting of a summary -/

namespace Flow

theorem treesWithin_iff {n : Nat} {f : Flow} : f.TreesWithin n ↔
    f.queryParameters.height ≤ n ∧ f.contentStructure.height ≤ n ∧
      f.contentParameters.height ≤ n ∧ f.responseStructure.height ≤ n := by
  simp only [TreesWithin, ShapeTree.depth_toJson]

theorem TreesWithin.merge {n : Nat} {f g : Flow} (mode : MergeMode) (hf : f.TreesWithin n)
    (hg : g.TreesWithin n) : (f.merge mode g).TreesWithin n := by
  rw [treesWithin_iff] at *
  obtain ⟨hfq, hfcs, hfcp, hfr⟩ := hf
  obtain ⟨hgq, hgcs, hgcp, hgr⟩ := hg
  exact ⟨ShapeTree.height_merge_le mode hfq hgq, ShapeTree.height_merge_le mode hfcs hgcs,
    ShapeTree.height_merge_le mode hfcp hgcp, ShapeTree.height_merge_le mode hfr hgr⟩

/-- A flow is nested at most as deep as one that widens it. -/
theorem WidenedBy.treesWithin {n : Nat} {f g : Flow} (h : f.WidenedBy g) (hg : g.TreesWithin n) :
    f.TreesWithin n := by
  rw [treesWithin_iff] at *
  obtain ⟨hq, hcs, hcp, hr⟩ := hg
  exact ⟨Nat.le_trans (ShapeTree.height_mono h.queryParameters) hq,
    Nat.le_trans (ShapeTree.height_mono h.contentStructure) hcs,
    Nat.le_trans (ShapeTree.height_mono h.contentParameters) hcp,
    Nat.le_trans (ShapeTree.height_mono h.responseStructure) hr⟩

end Flow

namespace Schema.Summarizes

variable {s : Schema} {flows : List Flow} {entities : List Entity}

/-- The flows of a summary are nested as deep as those that were observed. -/
theorem treesWithin_iff (h : s.Summarizes flows entities) {n : Nat} :
    (s.endpoints.Forall fun flows => flows.Forall (Flow.TreesWithin n)) ↔
      ∀ f ∈ flows, f.TreesWithin n := by
  rw [← forallFlows_iff]
  constructor
  · intro hwithin f hf
    have hmem : [f] ⊆ flows.filter (Flow.isAt f.service f.endpoint) :=
      List.cons_subset.2 ⟨List.mem_filter.2 ⟨hf, by simp⟩, List.nil_subset _⟩
    obtain ⟨g, hg, hfg⟩ := Flow.exists_widenedBy hmem (fun a ha => (List.mem_filter.1 ha).2) rfl
    exact hfg.treesWithin (hwithin f.service f.endpoint g ((h.flow?_eq _ _).trans hg))
  · exact fun hflows => h.forallFlows hflows fun _ _ => Flow.TreesWithin.merge .widen

end Schema.Summarizes

/-! ## The nesting of observations -/

namespace Capture

variable {config : Config} {exchanges : List Exchange}

/-- Apart from its request body, an observed flow is limited by the configuration. -/
theorem treesWithin_iff_of_mem {n : Nat} (hn : config.maxDepth + 2 ≤ n) {f : Flow}
    (hf : f ∈ observedFlows config exchanges) :
    f.TreesWithin n ↔ f.contentStructure.height ≤ n := by
  have hresponse := height_response_of_mem hf
  obtain ⟨e, -, g, hg, rfl⟩ := exists_decode_of_mem_observedFlows hf
  obtain ⟨hquery, hparameters, -, -⟩ := Exchange.height_le_of_decode hg
  rw [Flow.treesWithin_iff]
  simp only [stripped] at hresponse ⊢
  omega

/-- A request body in JSON has a shape that is not nested deeper than the body. -/
theorem height_contentStructure_of_mem {n : Nat} (hn : config.maxDepth + 2 ≤ n)
    (hjson : ∀ e ∈ exchanges, e.JsonWithin n) {f : Flow}
    (hf : f ∈ observedFlows config exchanges) : f.contentStructure.height ≤ n := by
  obtain ⟨e, he, g, hg, rfl⟩ := exists_decode_of_mem_observedFlows hf
  obtain ⟨-, -, -, hcontent⟩ := Exchange.height_le_of_decode hg
  exact hcontent n hn (hjson e he)

end Capture

open Capture

/-- The file of a summary is nested four levels deeper than the request bodies that were observed,
if it is nested deeper than the configuration allows for everything else. -/
theorem depth_toJson_captureSchema {config : Config} {exchanges : List Exchange} {s : Schema}
    {n : Nat} (hn : config.maxDepth + 2 ≤ n)
    (h : s.Summarizes (observedFlows config exchanges) (observedEntities config exchanges)) :
    s.toJson.depth ≤ n + 4 ↔
      ∀ f ∈ observedFlows config exchanges, f.contentStructure.height ≤ n := by
  have hproperties : s.entities.Forall fun e => e.properties.toJson.depth ≤ n + 2 := by
    intro name e he
    have hheight := (h.heightsWithin (Nat.le_refl _)).properties name e he
    rw [ShapeTree.depth_toJson]
    omega
  rw [Schema.depth_toJson_le_iff, and_iff_left hproperties, h.treesWithin_iff]
  exact forall₂_congr fun f hf => treesWithin_iff_of_mem hn hf

/-- The schema of a capture is read back from its file just if no request body in it has more
levels than a file leaves for it. -/
theorem captureSchema_readable_iff (config : Config) (hlimit : config.maxDepth ≤ 121)
    (exchanges : List Exchange) : ∃ s, captureSchema config exchanges = .ok s ∧
      ∀ layout, (∃ t, Schema.ofText (s.toText layout) = .ok t ∧ t.contractEq s) ↔
        ∀ f ∈ observedFlows config exchanges, f.contentStructure.height ≤ 123 := by
  obtain ⟨s, hs, hsum⟩ := captureSchema_summarizes config exchanges
  have hnamed (service endpoint : String) (f : Flow) (hf : s.flow? service endpoint = some f) :
      (f.service = "" → service = "") ∧ (f.endpoint = "" → endpoint = "") := by
    obtain ⟨hservice, hendpoint⟩ := Flow.isAt_iff.1 (hsum.isAt_of_flow? hf)
    exact ⟨fun h => hservice ▸ h, fun h => hendpoint ▸ h⟩
  refine ⟨s, hs, fun layout => ?_⟩
  rw [Schema.exists_ofText_toText_iff hsum.keyed hnamed]
  exact depth_toJson_captureSchema (by omega) hsum

/-- **The file of a capture can be read back just if no request body in it has more than 123
levels.** In particular it can be read back if no request body in JSON is nested deeper than
that. -/
theorem captureSchema_readable (exchanges : List Exchange) :
    ∃ s, captureSchema {} exchanges = .ok s ∧
      (∀ layout, (∃ t, Schema.ofText (s.toText layout) = .ok t ∧ t.contractEq s) ↔
        ∀ f ∈ observedFlows {} exchanges, f.contentStructure.height ≤ 123) ∧
      ((∀ e ∈ exchanges, e.JsonWithin 123) →
        ∀ layout, ∃ t, Schema.ofText (s.toText layout) = .ok t ∧ t.contractEq s) := by
  obtain ⟨s, hs, hreadable⟩ := captureSchema_readable_iff {} (by decide) exchanges
  refine ⟨s, hs, hreadable, fun hjson layout => (hreadable layout).2 fun f hf => ?_⟩
  exact height_contentStructure_of_mem (by decide) hjson hf

/-! ## Nested request bodies -/

/-- Objects in objects, the innermost without members. -/
def nestedObject : Nat → Json.Value
  | 0 => .object []
  | n + 1 => .object [("a", nestedObject n)]

theorem numberFree_nestedObject (n : Nat) : (nestedObject n).numberFree := by
  induction n with
  | zero => rfl
  | succ n ih => simp [nestedObject, Value.numberFree, Value.membersNumberFree, ih]

theorem depth_nestedObject (n : Nat) : (nestedObject n).depth = n + 1 := by
  induction n with
  | zero => rfl
  | succ n ih => simp [nestedObject, Value.depth, Value.membersDepth, ih]

/-- No level is lost in the shape. -/
theorem le_height_infer_nestedObject (n : Nat) : n + 1 ≤ (Shape.infer (nestedObject n)).height := by
  induction n with
  | zero => exact Nat.le_refl 1
  | succ n ih =>
    cases hshape : Shape.infer (nestedObject n) with
    | scalar tag =>
      rw [hshape] at ih
      cases ih
    | tree c =>
      rw [hshape] at ih
      have hfield : ((∅ : ShapeTree).insert "a" (.tree c)).get? "a" = some (.tree c) := by simp
      rw [nestedObject, Shape.infer, ShapeTree.inferMembers, hshape, ShapeTree.inferMembers]
      exact Nat.lt_of_le_of_lt ih (ShapeTree.height_lt_of_get? hfield)

theorem ofText_nestedObject {n : Nat} (h : n < Node.maxDepth) (layout : Layout) :
    Json.Value.ofText ((nestedObject n).text layout) = .ok (nestedObject n) :=
  Value.ofText_text (numberFree_nestedObject n) (depth_nestedObject n ▸ h) layout

/-- An exchange with a request body of `n + 1` levels. -/
def nestedRequest (n : Nat) : Exchange where
  method := "POST"
  path := "/svc/save"
  requestBody := ((nestedObject n).text .compact).toUTF8
  handle := "1"

theorem jsonWithin_nestedRequest {n : Nat} (h : n < Node.maxDepth) :
    (nestedRequest n).JsonWithin (n + 1) := by
  intro text value htext hvalue
  have hbody := Utf8.fromUTF8?_toUTF8 ((nestedObject n).text .compact)
  cases htext.symm.trans hbody
  rw [ofText_nestedObject h, Except.ok.injEq] at hvalue
  rw [← hvalue, depth_nestedObject]

/-- A request body of 123 levels can be read back. -/
theorem captureSchema_readable_nestedRequest : ∃ s, captureSchema {} [nestedRequest 122] = .ok s ∧
    ∀ layout, ∃ t, Schema.ofText (s.toText layout) = .ok t ∧ t.contractEq s := by
  obtain ⟨s, hs, -, hreadable⟩ := captureSchema_readable [nestedRequest 122]
  refine ⟨s, hs, hreadable fun e he => ?_⟩
  rw [List.mem_singleton.1 he]
  exact jsonWithin_nestedRequest (by decide)

theorem exists_observedFlow_nestedRequest : ∃ f ∈ observedFlows {} [nestedRequest 123],
    ¬ f.contentStructure.height ≤ 123 := by
  have hshape (limit : Nat) : (nestedRequest 123).requestShape? limit =
      some (.json, ShapeTree.inferMembers [("a", nestedObject 122)] ∅) :=
    Exchange.requestShape?_object rfl (numberFree_nestedObject 123)
      (Nat.le_trans (Nat.le_of_eq (depth_nestedObject 123)) (by decide)) limit
  have htarget : Target.ofPath? (nestedRequest 123).path = some ⟨"svc", "save", none⟩ := by
    decide +kernel
  have hresponse : Exchange.responseShape {} (nestedRequest 123).responseBody = .ok (∅, false) :=
    if_pos (by decide +kernel)
  obtain ⟨f, hdecode, hcontent⟩ : ∃ f, (nestedRequest 123).decode {} = .ok f ∧
      f.contentStructure = ShapeTree.inferMembers [("a", nestedObject 122)] ∅ := by
    unfold Exchange.decode
    rw [htarget]
    simp only [hshape, hresponse]
    exact ⟨_, rfl, rfl⟩
  have hflow : flowOf? {} (nestedRequest 123) = some f := by
    rw [flowOf?, if_neg (by decide +kernel), hdecode]
    rfl
  refine ⟨stripped f, by simp [observedFlows, hflow], ?_⟩
  have hheight : 124 ≤ (Shape.infer (nestedObject 123)).height := le_height_infer_nestedObject 123
  change ¬ f.contentStructure.height ≤ 123
  rw [hcontent]
  exact Nat.not_le.2 hheight

/-- **A capture that cannot be read back**: a request body of 124 levels is accepted, but the file
of the capture is nested too deep. -/
theorem not_readable_nestedRequest :
    Json.Value.ofText ((nestedObject 123).text .compact) = .ok (nestedObject 123) ∧
      ∃ s, captureSchema {} [nestedRequest 123] = .ok s ∧
        ∀ layout, ¬ ∃ t, Schema.ofText (s.toText layout) = .ok t ∧ t.contractEq s := by
  obtain ⟨s, hs, hreadable⟩ := captureSchema_readable_iff {} (by decide) [nestedRequest 123]
  obtain ⟨f, hf, hheight⟩ := exists_observedFlow_nestedRequest
  exact ⟨ofText_nestedObject (by decide) .compact, s, hs, fun layout h =>
    hheight ((hreadable layout).1 h f hf)⟩

end TrafficSchema
