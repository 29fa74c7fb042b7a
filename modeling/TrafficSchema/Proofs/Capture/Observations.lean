import TrafficSchema.Capture
import TrafficSchema.Proofs.Schema.Merge

/-!
# What a capture observes

Every exchange is looked at on its own: it is left out, or it gives one flow and the entities of
its response (`Capture.flowOf?`). A capture holds what its exchanges give one after the other
(`Capture.addAll_eq`), and its schema summarizes that (`captureSchema_summarizes`). So whatever is
to be said of the schemas of captures can be said of lists of observations.
-/

namespace TrafficSchema

namespace Capture

variable {config : Config}

/-! ## One exchange -/

/-- The flow of an exchange, unless the exchange is blocked or cannot be decoded. -/
def flowOf? (config : Config) (e : Exchange) : Option Flow :=
  if isBlocked config e then none else (e.decode config).toOption

/-- What becomes of an exchange. -/
inductive Outcome
  /-- It is decoded, and its flow is held. -/
  | processed
  /-- It cannot be decoded. -/
  | dropped
  /-- It belongs to a blocked endpoint. -/
  | blocked
  deriving DecidableEq

/-- What becomes of an exchange under a configuration. -/
def outcome (config : Config) (e : Exchange) : Outcome :=
  if isBlocked config e then .blocked
  else match e.decode config with
    | .error _ => .dropped
    | .ok _ => .processed

theorem add_of_isBlocked {c : Capture} {e : Exchange} (h : isBlocked c.config e) :
    c.add e = ({ c with blocked := c.blocked + 1 }, none) := if_pos h

theorem add_of_error {c : Capture} {e : Exchange} (hblocked : ¬ isBlocked c.config e)
    {error : ExchangeError} (h : e.decode c.config = .error error) :
    c.add e = ({ c with dropped := c.dropped + 1 }, some error) := by
  rw [add, if_neg hblocked, h]

theorem add_of_ok {c : Capture} {e : Exchange} (hblocked : ¬ isBlocked c.config e) {f : Flow}
    (h : e.decode c.config = .ok f) : c.add e = (c.addFlow f, none) := by
  rw [add, if_neg hblocked, h]

/-- **What a capture does with an exchange.** It counts the exchange, and holds its flow if there
is one; an error is returned just if the exchange is dropped. -/
theorem add_cases (c : Capture) (e : Exchange) :
    (isBlocked c.config e ∧ outcome c.config e = .blocked ∧ flowOf? c.config e = none ∧
      c.add e = ({ c with blocked := c.blocked + 1 }, none)) ∨
    (∃ error, e.decode c.config = .error error ∧ outcome c.config e = .dropped ∧
      flowOf? c.config e = none ∧
      c.add e = ({ c with dropped := c.dropped + 1 }, some error)) ∨
    ∃ f, e.decode c.config = .ok f ∧ outcome c.config e = .processed ∧
      flowOf? c.config e = some f ∧ c.add e = (c.addFlow f, none) := by
  unfold outcome flowOf?
  by_cases hblocked : isBlocked c.config e
  · exact .inl ⟨hblocked, if_pos hblocked, if_pos hblocked, add_of_isBlocked hblocked⟩
  · rw [if_neg hblocked, if_neg hblocked]
    cases hdecode : e.decode c.config with
    | error error => exact .inr (.inl ⟨error, rfl, rfl, rfl, add_of_error hblocked hdecode⟩)
    | ok f => exact .inr (.inr ⟨f, rfl, rfl, rfl, add_of_ok hblocked hdecode⟩)

theorem decode_eq_of_flowOf? {e : Exchange} {f : Flow} (h : flowOf? config e = some f) :
    e.decode config = .ok f := by
  obtain ⟨-, -, hnone, -⟩ | ⟨error, -, -, hnone, -⟩ | ⟨g, hg, -, hsome, -⟩ :=
    add_cases { config } e
  · cases hnone.symm.trans h
  · cases hnone.symm.trans h
  · cases hsome.symm.trans h
    exact hg

/-- A flow without the attributes of the entities in its response. -/
def stripped (f : Flow) : Flow :=
  { f with responseStructure := (extractEntities f.responseStructure).residual }

/-- The entities in the response of a flow. -/
def foundIn (f : Flow) : List Entity := (extractEntities f.responseStructure).entities.values

/-! ## Several exchanges -/

/-- The flows that a capture of some exchanges holds. -/
def observedFlows (config : Config) (exchanges : List Exchange) : List Flow :=
  (exchanges.filterMap (flowOf? config)).map stripped

/-- The entities that a capture of some exchanges holds. -/
def observedEntities (config : Config) (exchanges : List Exchange) : List Entity :=
  (exchanges.filterMap (flowOf? config)).flatMap foundIn

theorem observedFlows_append (xs ys : List Exchange) :
    observedFlows config (xs ++ ys) = observedFlows config xs ++ observedFlows config ys := by
  simp only [observedFlows, List.filterMap_append, List.map_append]

theorem observedEntities_append (xs ys : List Exchange) :
    observedEntities config (xs ++ ys) =
      observedEntities config xs ++ observedEntities config ys := by
  simp only [observedEntities, List.filterMap_append, List.flatMap_append]

/-- An observed flow was decoded from one of the exchanges. -/
theorem exists_decode_of_mem_observedFlows {exchanges : List Exchange} {f : Flow}
    (hf : f ∈ observedFlows config exchanges) :
    ∃ e ∈ exchanges, ∃ g, e.decode config = .ok g ∧ f = stripped g := by
  obtain ⟨g, hg, rfl⟩ := List.mem_map.1 hf
  obtain ⟨e, hmem, he⟩ := List.mem_filterMap.1 hg
  exact ⟨e, hmem, g, decode_eq_of_flowOf? he, rfl⟩

/-- An observed entity was found in a flow that was decoded from one of the exchanges. -/
theorem exists_decode_of_mem_observedEntities {exchanges : List Exchange} {a : Entity}
    (ha : a ∈ observedEntities config exchanges) :
    ∃ e ∈ exchanges, ∃ g, e.decode config = .ok g ∧ a ∈ foundIn g := by
  obtain ⟨g, hg, ha⟩ := List.mem_flatMap.1 ha
  obtain ⟨e, hmem, he⟩ := List.mem_filterMap.1 hg
  exact ⟨e, hmem, g, decode_eq_of_flowOf? he, ha⟩

/-- Entities are only found in flows. -/
theorem observedEntities_eq_nil {exchanges : List Exchange}
    (h : observedFlows config exchanges = []) : observedEntities config exchanges = [] := by
  rw [observedFlows, List.map_eq_nil_iff] at h
  rw [observedEntities, h, List.flatMap_nil]

theorem observedFlows_subset {xs ys : List Exchange} (h : xs ⊆ ys) :
    observedFlows config xs ⊆ observedFlows config ys :=
  List.map_subset _ (List.filterMap_subset _ h)

theorem observedEntities_subset {xs ys : List Exchange} (h : xs ⊆ ys) :
    observedEntities config xs ⊆ observedEntities config ys := by
  intro a ha
  obtain ⟨f, hf, ha⟩ := List.mem_flatMap.1 ha
  exact List.mem_flatMap.2 ⟨f, List.filterMap_subset _ h hf, ha⟩

/-! ## Runs of a capture -/

/-- One more exchange adds what it gives on its own. -/
theorem add_fst (c : Capture) (e : Exchange) :
    (c.add e).1.config = c.config ∧
      (c.add e).1.flows = c.flows ++ observedFlows c.config [e] ∧
      (c.add e).1.entities = c.entities ++ observedEntities c.config [e] := by
  unfold observedFlows observedEntities
  obtain ⟨-, -, hnone, hadd⟩ | ⟨error, -, -, hnone, hadd⟩ | ⟨f, -, -, hsome, hadd⟩ :=
    c.add_cases e
  · simp [hadd, hnone]
  · simp [hadd, hnone]
  · simp [hadd, hsome, addFlow, stripped, foundIn]

/-- A capture goes on with what further exchanges give. -/
theorem addAll_eq (c : Capture) (exchanges : List Exchange) :
    (c.addAll exchanges).config = c.config ∧
      (c.addAll exchanges).flows = c.flows ++ observedFlows c.config exchanges ∧
      (c.addAll exchanges).entities = c.entities ++ observedEntities c.config exchanges := by
  induction exchanges generalizing c with
  | nil => simp [addAll, observedFlows, observedEntities]
  | cons e exchanges ih =>
    obtain ⟨hconfig, hflows, hentities⟩ := add_fst c e
    obtain ⟨ihconfig, ihflows, ihentities⟩ := ih (c.add e).1
    have hcons : c.addAll (e :: exchanges) = (c.add e).1.addAll exchanges := rfl
    have hsplit : e :: exchanges = [e] ++ exchanges := rfl
    rw [hcons, ihconfig, ihflows, ihentities, hconfig, hflows, hentities, hsplit,
      observedFlows_append, observedEntities_append, List.append_assoc, List.append_assoc]
    exact ⟨rfl, rfl, rfl⟩

/-- **The schema of a capture summarizes what it holds.** In particular there always is one. -/
theorem schema_summarizes (c : Capture) :
    ∃ s, c.schema = .ok s ∧ s.Summarizes c.flows c.entities := by
  refine ⟨⟨(FlowGroups.ofFlows c.flows).fold, Entity.recordAll c.entities⟩, ?_, ?_, ?_, ?_⟩
  · rw [schema, Entity.collect_eq]
    rfl
  · exact FlowGroups.proper_fold _
  · exact FlowGroups.at?_fold_ofFlows _
  · exact Entity.get?_recordAll _

end Capture

open Capture

/-- **The schema of exchanges summarizes what is observed in them.** -/
theorem captureSchema_summarizes (config : Config) (exchanges : List Exchange) :
    ∃ s, captureSchema config exchanges = .ok s ∧
      s.Summarizes (observedFlows config exchanges) (observedEntities config exchanges) := by
  obtain ⟨-, hflows, hentities⟩ := addAll_eq { config } exchanges
  simp only [List.nil_append] at hflows hentities
  rw [← hflows, ← hentities]
  exact schema_summarizes _

theorem summarizes_of_captureSchema {config : Config} {exchanges : List Exchange} {s : Schema}
    (h : captureSchema config exchanges = .ok s) :
    s.Summarizes (observedFlows config exchanges) (observedEntities config exchanges) := by
  obtain ⟨t, ht, hsum⟩ := captureSchema_summarizes config exchanges
  rw [h, Except.ok.injEq] at ht
  rwa [← ht] at hsum

end TrafficSchema
