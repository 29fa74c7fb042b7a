import TrafficSchema.Proofs.Capture.Observations
import TrafficSchema.Proofs.Entity.Residual
import TrafficSchema.Proofs.Schema.Join
import TrafficSchema.Proofs.Schema.Override

/-!
# Schemas derived from captures

The schemas of captures can be joined and applied to each other, any number of times
(`Schema.Derived`). All flows of the resulting schemas are merged from flows that were observed.
So what holds of every observed flow, and is kept when two flows are merged in either mode, holds
of all flows of a derived schema (`Schema.Derived.forallFlows`, and `forallFlows_of_decode` for what
depends on the exchanges being decoded).

An observed flow has lost the entities of its response, and merging does not bring any back
(`Schema.Derived.extractEntities_response`).
-/

namespace TrafficSchema

namespace Schema

/-- A schema that was made from the schemas of captures by joining them and by applying one to
another. -/
inductive Derived : Schema → Prop
  | capture {config : Config} {exchanges : List Exchange} {s : Schema}
      (h : captureSchema config exchanges = .ok s) : Derived s
  | merge {s t u : Schema} (hs : Derived s) (ht : Derived t) (h : s.merge t = .ok u) : Derived u
  | mergeAll {parts : List Schema} {u : Schema} (hparts : ∀ s ∈ parts, Derived s)
      (h : mergeAll parts = .ok u) : Derived u
  | override {s t u : Schema} (hs : Derived s) (ht : Derived t) (h : s.override t = .ok u) :
      Derived u

variable {P : Flow → Prop} {s t u : Schema}

/-! ## One step -/

theorem ForallFlows.of_combine {mode : MergeMode} (hs : s.ForallFlows P) (ht : t.ForallFlows P)
    (hmerge : ∀ f g, P f → P g → P (f.merge mode g)) (h : combine mode s t = .ok u) :
    u.ForallFlows P := by
  intro service endpoint f hf
  rw [flow?_of_combine h] at hf
  exact Dict.combine?_invariant hmerge (hs service endpoint) (ht service endpoint) hf

theorem ForallFlows.of_merge (hs : s.ForallFlows P) (ht : t.ForallFlows P)
    (hmerge : ∀ f g, P f → P g → P (f.merge .widen g)) (h : s.merge t = .ok u) :
    u.ForallFlows P :=
  merge_invariant hs ht (hs.of_combine ht hmerge) h

/-! ## Any number of steps -/

/-- **What holds of decoded flows when their entities are taken out, and is kept when flows are
merged, holds of all flows** of a derived schema. -/
theorem Derived.forallFlows_of_decode
    (hobserved : ∀ config e f, Exchange.decode config e = .ok f → P (Capture.stripped f))
    (hmerge : ∀ mode f g, P f → P g → P (f.merge mode g)) (hs : s.Derived) : s.ForallFlows P := by
  induction hs with
  | capture h =>
    refine (summarizes_of_captureSchema h).forallFlows (fun f hf => ?_) (hmerge .widen)
    obtain ⟨e, -, g, hg, rfl⟩ := Capture.exists_decode_of_mem_observedFlows hf
    exact hobserved _ e g hg
  | merge _ _ h hs ht => exact hs.of_merge ht (hmerge .widen) h
  | mergeAll _ h ih =>
    exact mergeAll_invariant forallFlows_empty
      (fun _ _ _ hs ht => hs.of_merge ht (hmerge .widen)) ih h
  | override _ _ h hs ht => exact hs.of_combine ht (hmerge .override) h

/-- **What holds of observed flows, and is kept when flows are merged, holds of all flows** of a
derived schema. -/
theorem Derived.forallFlows (hobserved : ∀ f, P (Capture.stripped f))
    (hmerge : ∀ mode f g, P f → P g → P (f.merge mode g)) (hs : s.Derived) : s.ForallFlows P :=
  hs.forallFlows_of_decode (fun _ _ f _ => hobserved f) hmerge

/-- **No entity is left in the response of any flow** of a derived schema: extracting entities
from it once more finds none and leaves it as it is. -/
theorem Derived.extractEntities_response (hs : s.Derived) {service endpoint : String} {f : Flow}
    (hf : s.flow? service endpoint = some f) :
    extractEntities f.responseStructure = ⟨f.responseStructure, ∅⟩ := by
  have hresidual : s.ForallFlows fun f => f.responseStructure.Residual :=
    hs.forallFlows (fun f => f.responseStructure.residual_extractEntities)
      fun mode f g hf hg => hf.merge mode hg
  exact (hresidual service endpoint f hf).extractEntities_eq

/-- An exchange with a response. -/
def answered (path response : String) : Exchange :=
  { method := "GET", path := path, responseBody := response.toUTF8 }

/-- A response with a version, in which an order has attributes. -/
def versioned : Exchange :=
  answered "/orders/list" "<response version=\"1\"><order id=\"1\"><item/></order></response>"

/-- A response without a version, in which an order has none. -/
def unversioned : Exchange :=
  answered "/orders/list" "<response status=\"ok\"><order/></response>"

/-- The response that is left over from both. -/
def leftOver : ShapeTree :=
  .singleton "response" <| .tree <| .ofList
    [(attributesKey, .tree (.singleton "version" (.scalar .int))),
      ("order", .tree (.singleton "item" (.tree ∅)))]

theorem Derived.extractEntities_response_orders :
    ∃ (s : Schema) (f : Flow), s.Derived ∧ s.flow? "orders" "list" = some f ∧
      f.responseStructure = leftOver ∧
      extractEntities f.responseStructure = ⟨f.responseStructure, ∅⟩ := by
  obtain ⟨s, hs, hsum⟩ := captureSchema_summarizes {} [versioned]
  obtain ⟨t, ht, htsum⟩ := captureSchema_summarizes {} [unversioned]
  obtain ⟨u, hu, husum⟩ :=
    hsum.merge htsum Capture.observedEntities_eq_nil Capture.observedEntities_eq_nil
  rw [← Capture.observedFlows_append] at husum
  have hflow : (u.flow? "orders" "list").map (·.responseStructure) = some leftOver := by
    rw [husum.flow?_eq]
    decide +kernel
  obtain ⟨f, hf, hresponse⟩ := Option.map_eq_some_iff.1 hflow
  have hderived : u.Derived := .merge (.capture hs) (.capture ht) hu
  exact ⟨u, f, hderived, hf, hresponse, hderived.extractEntities_response hf⟩

end Schema

end TrafficSchema
