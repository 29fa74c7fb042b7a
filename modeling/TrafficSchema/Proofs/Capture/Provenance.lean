import Mathlib.Data.List.Forall2
import TrafficSchema.Proofs.Capture.Observations
import TrafficSchema.Proofs.Exchange.RequestBody
import TrafficSchema.Proofs.Schema.Notation

/-!
# What does not show in a schema

Exchanges are alike (`Exchange.Alike`) if they differ in nothing else than the content types that
were sent and in how they are referred to. The content types have no effect on what is decoded, and
the reference is carried along with the flow without any effect on the rest
(`Exchange.Alike.decode_cases`).

Two captures that take exchanges which are alike stay equal but for the references, step by step
(`Capture.add_alike`, `Capture.addAll_alike`). References are not part of a contract, so their
schemas have the same contract and the same text (`captureSchema_alike`).
-/

namespace TrafficSchema

/-! ## Exchanges -/

namespace Exchange

/-- Exchanges with the same contents. The content types that were sent, and how the exchanges are
referred to, may differ. -/
structure Alike (e e' : Exchange) : Prop where
  method : e.method = e'.method
  path : e.path = e'.path
  requestBody : e.requestBody = e'.requestBody
  responseBody : e.responseBody = e'.responseBody

variable {e e' : Exchange}

/-- **Exchanges that are alike are decoded alike**, but for the references to them. -/
theorem Alike.decode_cases (h : e.Alike e') (config : Config) :
    (∃ error, e.decode config = .error error ∧ e'.decode config = .error error) ∨
      ∃ f g, e.decode config = .ok f ∧ e'.decode config = .ok g ∧ f.contract = g.contract := by
  unfold Exchange.decode
  rw [h.path, h.method, h.responseBody, requestShape?_congr h.requestBody]
  cases Target.ofPath? e'.path with
  | none => exact .inl ⟨_, rfl, rfl⟩
  | some target =>
    cases responseShape config e'.responseBody with
    | error fault => exact .inl ⟨_, rfl, rfl⟩
    | ok response => exact .inr ⟨_, _, rfl, rfl, rfl⟩

end Exchange

/-! ## Captures -/

namespace Capture

variable {c c' : Capture} {e e' : Exchange} {config : Config}

/-- The capture without the references of its flows to exchanges. -/
def contract (c : Capture) : Capture := { c with flows := c.flows.map Flow.contract }

theorem contract_addFlow (c : Capture) (f : Flow) :
    (c.addFlow f).contract = c.contract.addFlow f.contract := by
  simp only [contract, addFlow, List.map_append]
  rfl

theorem isBlocked_alike (h : e.Alike e') (config : Config) :
    isBlocked config e = isBlocked config e' := by
  rw [isBlocked, isBlocked, h.path]

/-- The same becomes of exchanges that are alike. -/
theorem outcome_alike (h : e.Alike e') (config : Config) :
    outcome config e = outcome config e' := by
  rw [outcome, outcome, isBlocked_alike h]
  obtain ⟨error, he, he'⟩ | ⟨f, g, he, he', -⟩ := h.decode_cases config <;> rw [he, he']

/-- **Captures that are equal but for references stay so** when they take exchanges that are alike,
and both answer the same. -/
theorem add_alike (hc : c.contract = c'.contract) (he : e.Alike e') :
    (c.add e).1.contract = (c'.add e').1.contract ∧ (c.add e).2 = (c'.add e').2 := by
  have hconfig : c.contract.config = c'.contract.config := by rw [hc]
  change c.config = c'.config at hconfig
  by_cases hblocked : isBlocked c.config e
  · have hblocked' : isBlocked c'.config e' := by rwa [← hconfig, ← isBlocked_alike he]
    rw [add_of_isBlocked hblocked, add_of_isBlocked hblocked']
    refine ⟨?_, rfl⟩
    change { c.contract with blocked := c.contract.blocked + 1 } =
      { c'.contract with blocked := c'.contract.blocked + 1 }
    rw [hc]
  · have hblocked' : ¬ isBlocked c'.config e' := by rwa [← hconfig, ← isBlocked_alike he]
    obtain ⟨error, hd, hd'⟩ | ⟨f, g, hd, hd', hfg⟩ := he.decode_cases c.config
    · rw [hconfig] at hd'
      rw [add_of_error hblocked hd, add_of_error hblocked' hd']
      refine ⟨?_, rfl⟩
      change { c.contract with dropped := c.contract.dropped + 1 } =
        { c'.contract with dropped := c'.contract.dropped + 1 }
      rw [hc]
    · rw [hconfig] at hd'
      rw [add_of_ok hblocked hd, add_of_ok hblocked' hd', contract_addFlow, contract_addFlow, hc,
        hfg]
      exact ⟨rfl, rfl⟩

theorem addAll_alike {xs ys : List Exchange} (h : List.Forall₂ Exchange.Alike xs ys)
    (hc : c.contract = c'.contract) : (c.addAll xs).contract = (c'.addAll ys).contract := by
  induction h generalizing c c' with
  | nil => exact hc
  | cons he _ ih => exact ih (add_alike hc he).1

end Capture

/-! ## Schemas -/

/-- Flows are merged without regard to references. -/
theorem Flow.contract_merge (mode : MergeMode) (f g : Flow) :
    (f.merge mode g).contract = f.contract.merge mode g.contract := by
  cases mode <;> rfl

/-- The contract of a schema summarizes the contracts of the flows. -/
theorem Schema.Summarizes.contract {s : Schema} {flows : List Flow} {entities : List Entity}
    (hs : s.Summarizes flows entities) :
    s.contract.Summarizes (flows.map Flow.contract) entities := by
  refine ⟨hs.proper.map fun _ _ => Flow.contract, fun service endpoint => ?_, hs.get?_entities⟩
  have hat := Dict.at?_map (fun _ _ => Flow.contract) s.endpoints service endpoint
  have hfilter : (flows.map Flow.contract).filter (Flow.isAt service endpoint) =
      (flows.filter (Flow.isAt service endpoint)).map Flow.contract := List.filter_map
  rw [Schema.contract, hat, hs.at?_endpoints, hfilter,
    reduce?_map Flow.contract (Flow.contract_merge .widen)]

open Capture

/-- **Neither references nor content types show in a schema.** Of exchanges that are alike the same
are processed, dropped and blocked, the counts are the same at any time, and the schemas are equal
but for references and are written as the same text. -/
theorem captureSchema_alike (config : Config) {xs ys : List Exchange}
    (h : List.Forall₂ Exchange.Alike xs ys) :
    xs.map (outcome config) = ys.map (outcome config) ∧
      (∀ n, (addAll { config } (xs.take n)).stats = (addAll { config } (ys.take n)).stats) ∧
      ∃ s t, captureSchema config xs = .ok s ∧ captureSchema config ys = .ok t ∧
        s.contractEq t ∧ ∀ layout, s.toText layout = t.toText layout := by
  refine ⟨?_, fun n => ?_, ?_⟩
  · induction h with
    | nil => rfl
    | cons he _ ih => rw [List.map_cons, List.map_cons, outcome_alike he, ih]
  · -- references do not count
    change (addAll { config } (xs.take n)).contract.stats =
      (addAll { config } (ys.take n)).contract.stats
    rw [addAll_alike (List.forall₂_take n h) rfl]
  · obtain ⟨s, hs, hsum⟩ := schema_summarizes (addAll { config } xs)
    obtain ⟨t, ht, htsum⟩ := schema_summarizes (addAll { config } ys)
    have hcontract := addAll_alike (c := { config }) h rfl
    have hst : s.contract = t.contract := by
      have hsum' : s.contract.Summarizes (addAll { config } xs).contract.flows
        (addAll { config } xs).contract.entities := hsum.contract
      rw [hcontract] at hsum'
      exact hsum'.unique htsum.contract
    refine ⟨s, t, hs, ht, Schema.contractEq_iff.2 hst, fun layout => ?_⟩
    rw [← s.toText_contract, hst, t.toText_contract]

/-- An exchange with a JSON body, sent with or without saying so. -/
def saved (contentType : Option String) (handle : String) : Exchange where
  method := "POST"
  path := "/orders/save"
  requestBody := "\x7b\"id\": 1\x7d".toUTF8
  requestContentType := contentType
  handle := handle

theorem captureSchema_alike_saved :
    List.Forall₂ Exchange.Alike [saved (some "application/json") "1"] [saved none "2"] ∧
      ∃ s t f g, captureSchema {} [saved (some "application/json") "1"] = .ok s ∧
        captureSchema {} [saved none "2"] = .ok t ∧
        s.flow? "orders" "save" = some f ∧ f.contentType = .json ∧ f.capture = some "1" ∧
        t.flow? "orders" "save" = some g ∧ g.contentType = .json ∧ g.capture = some "2" ∧
        s.contractEq t ∧ ∀ layout, s.toText layout = t.toText layout := by
  have halike : List.Forall₂ Exchange.Alike [saved (some "application/json") "1"]
      [saved none "2"] := .cons ⟨rfl, rfl, rfl, rfl⟩ .nil
  obtain ⟨-, -, s, t, hs, ht, hcontract, htext⟩ := captureSchema_alike {} halike
  have hflow (contentType : Option String) (handle : String) {s : Schema}
      (hs : captureSchema {} [saved contentType handle] = .ok s)
      (hjson : ((observedFlows {} [saved contentType handle]).filter
        (Flow.isAt "orders" "save")).map (fun f => (f.contentType, f.capture)) =
          [(.json, some handle)]) :
      ∃ f, s.flow? "orders" "save" = some f ∧ f.contentType = .json ∧ f.capture = some handle := by
    obtain ⟨f, hfilter, hf⟩ := List.map_eq_singleton_iff.1 hjson
    refine ⟨f, ?_, Prod.mk.inj hf⟩
    rw [(summarizes_of_captureSchema hs).flow?_eq, hfilter]
    rfl
  obtain ⟨f, hf, hfjson, hfcapture⟩ := hflow _ _ hs (by decide +kernel)
  obtain ⟨g, hg, hgjson, hgcapture⟩ := hflow _ _ ht (by decide +kernel)
  exact ⟨halike, s, t, f, g, hs, ht, hf, hfjson, hfcapture, hg, hgjson, hgcapture, hcontract,
    htext⟩

end TrafficSchema
