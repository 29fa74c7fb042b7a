import TrafficSchema.Proofs.Capture.Observations

/-!
# The counts of a capture

A capture counts every exchange once, by what becomes of it (`Capture.counts_addAll`). An exchange
that is blocked or cannot be decoded is counted and leaves no other trace.

It also notes the names of the endpoints and of the entities that it has seen. Every step keeps them
in line with the flows and entities that are held (`Capture.Indexed.add`), so they are the names in
the schema (`Capture.Indexed.names_eq`), although this is only computed at the end.

`Capture.run_balanced` puts this together for any sequence of calls.
-/

namespace TrafficSchema

/-! ## The names in a schema -/

namespace Schema

/-- The names of the endpoints, by service. -/
def endpointNames (s : Schema) : Dict NameSet :=
  s.endpoints.map fun _ flows => flows.map fun _ _ => ()

theorem sumBy_size_endpointNames (s : Schema) : s.endpointNames.sumBy Dict.size = s.endpointCount :=
  Dict.sumBy_map (fun _ flows => Dict.size_map _ flows) s.endpoints

theorem size_entityNames (s : Schema) : s.entityNames.size = s.entities.size :=
  Dict.size_map _ s.entities

end Schema

namespace Capture

variable {config : Config} {c : Capture}

/-! ## The names that were noted -/

/-- The names that a capture has noted are those of the flows and entities that it holds. -/
structure Indexed (c : Capture) : Prop where
  proper : c.endpointNames.Proper
  endpointNames : ∀ service endpoint, c.endpointNames.at? service endpoint =
    if c.flows.any (Flow.isAt service endpoint) then some () else none
  entityNames : ∀ name, c.entityNames.get? name =
    if c.entities.any (·.name = name) then some () else none

theorem indexed_start (config : Config) : Indexed { config } :=
  ⟨Dict.proper_empty, fun _ _ => rfl, fun _ => rfl⟩

theorem Indexed.addFlow (h : c.Indexed) (f : Flow) : (c.addFlow f).Indexed := by
  refine ⟨h.proper.upsert_upsert f.service f.endpoint fun _ => (), fun service endpoint => ?_,
    fun name => ?_⟩
  · have hupsert := f.at?_upsert c.endpointNames (fun _ => ()) service endpoint
    rw [h.endpointNames] at hupsert
    refine hupsert.trans ?_
    change _ = if (c.flows ++ [stripped f]).any (Flow.isAt service endpoint) then some () else none
    have hstripped : (stripped f).isAt service endpoint = f.isAt service endpoint := rfl
    rw [List.any_append, List.any_cons, List.any_nil, hstripped]
    cases f.isAt service endpoint <;> simp
  · change ((foundIn f).foldl (fun names e => NameSet.add names e.name) c.entityNames).get? name = _
    rw [NameSet.get?_foldl_add, h.entityNames]
    change _ = if (c.entities ++ foundIn f).any (·.name = name) then some () else none
    rw [List.any_append]
    cases (foundIn f).any (·.name = name) <;> simp

/-- One more exchange keeps the names in line, whatever becomes of it. -/
theorem Indexed.add (h : c.Indexed) (e : Exchange) : (c.add e).1.Indexed := by
  obtain ⟨-, -, -, hadd⟩ | ⟨error, -, -, -, hadd⟩ | ⟨f, -, -, -, hadd⟩ := c.add_cases e
  · rw [hadd]
    exact ⟨h.proper, h.endpointNames, h.entityNames⟩
  · rw [hadd]
    exact ⟨h.proper, h.endpointNames, h.entityNames⟩
  · rw [hadd]
    exact h.addFlow f

theorem Indexed.addAll (h : c.Indexed) (exchanges : List Exchange) :
    (c.addAll exchanges).Indexed := by
  induction exchanges generalizing c with
  | nil => exact h
  | cons e exchanges ih => exact ih (h.add e)

/-- The names that were noted are the names in the schema. -/
theorem Indexed.names_eq (h : c.Indexed) {s : Schema} (hs : s.Summarizes c.flows c.entities) :
    c.endpointNames = s.endpointNames ∧ c.entityNames = s.entityNames := by
  constructor
  · refine h.proper.ext_at? (hs.proper.map fun _ _ _ => ()) fun service endpoint => ?_
    have hat := Dict.at?_map (fun _ _ _ => ()) s.endpoints service endpoint
    rw [h.endpointNames, Schema.endpointNames, hat, hs.at?_endpoints, map_reduce?_filter]
  · ext name : 1
    rw [h.entityNames, Schema.entityNames, Dict.get?_map, hs.get?_entities, map_reduce?_filter]

/-! ## Counting -/

/-- One more exchange is counted once. -/
theorem counts_add (c : Capture) (e : Exchange) :
    (c.add e).1.processed = c.processed + [outcome c.config e].count .processed ∧
      (c.add e).1.dropped = c.dropped + [outcome c.config e].count .dropped ∧
      (c.add e).1.blocked = c.blocked + [outcome c.config e].count .blocked := by
  obtain ⟨-, houtcome, -, hadd⟩ | ⟨error, -, houtcome, -, hadd⟩ | ⟨f, -, houtcome, -, hadd⟩ :=
    c.add_cases e
  all_goals
    rw [houtcome, hadd]
    exact ⟨rfl, rfl, rfl⟩

/-- Every exchange is counted by what becomes of it. -/
theorem counts_addAll (c : Capture) (exchanges : List Exchange) :
    (c.addAll exchanges).processed =
        c.processed + (exchanges.map (outcome c.config)).count .processed ∧
      (c.addAll exchanges).dropped =
        c.dropped + (exchanges.map (outcome c.config)).count .dropped ∧
      (c.addAll exchanges).blocked =
        c.blocked + (exchanges.map (outcome c.config)).count .blocked := by
  induction exchanges generalizing c with
  | nil => exact ⟨rfl, rfl, rfl⟩
  | cons e exchanges ih =>
    obtain ⟨hprocessed, hdropped, hblocked⟩ := counts_add c e
    obtain ⟨ihprocessed, ihdropped, ihblocked⟩ := ih (c.add e).1
    have hcons : c.addAll (e :: exchanges) = (c.add e).1.addAll exchanges := rfl
    have hcount (o : Outcome) : ((e :: exchanges).map (outcome c.config)).count o =
        [outcome c.config e].count o + (exchanges.map (outcome c.config)).count o := by
      rw [List.map_cons, ← List.singleton_append, List.count_append]
    rw [hcons, ihprocessed, ihdropped, ihblocked, hprocessed, hdropped, hblocked, (add_fst c e).1,
      hcount, hcount, hcount, Nat.add_assoc, Nat.add_assoc, Nat.add_assoc]
    exact ⟨rfl, rfl, rfl⟩

/-- Nothing else becomes of an exchange. -/
theorem count_outcomes (outcomes : List Outcome) :
    outcomes.count .processed + outcomes.count .dropped + outcomes.count .blocked =
      outcomes.length := by
  induction outcomes with
  | nil => rfl
  | cons o outcomes ih =>
    rw [List.length_cons, ← ih]
    cases o <;> simp only [List.count_cons_self, List.count_cons_of_ne, ne_eq, reduceCtorEq,
      not_false_eq_true] <;> omega

/-! ## Exchanges that leave a trace -/

/-- The exchanges that are neither dropped nor blocked. -/
def processedOf (config : Config) (exchanges : List Exchange) : List Exchange :=
  exchanges.filter fun e => outcome config e = .processed

theorem count_processed (config : Config) (exchanges : List Exchange) :
    (exchanges.map (outcome config)).count .processed = (processedOf config exchanges).length := by
  rw [List.count, List.countP_map, List.countP_eq_length_filter]
  congr 2

/-- What is observed is observed in the exchanges that are neither dropped nor blocked. -/
theorem filterMap_flowOf?_processedOf (config : Config) (exchanges : List Exchange) :
    (processedOf config exchanges).filterMap (flowOf? config) =
      exchanges.filterMap (flowOf? config) := by
  rw [processedOf, List.filterMap_filter]
  congr 1
  funext e
  obtain ⟨-, houtcome, hflow, -⟩ | ⟨error, -, houtcome, hflow, -⟩ | ⟨f, -, houtcome, hflow, -⟩ :=
    add_cases { config } e
  all_goals
    simp only at houtcome hflow
    simp [houtcome, hflow]

/-- An exchange that is answered by an error is only counted. -/
theorem add_fst_of_error {e : Exchange} {error : ExchangeError}
    (h : (c.add e).2 = some error) : (c.add e).1 = { c with dropped := c.dropped + 1 } := by
  obtain ⟨-, -, -, hadd⟩ | ⟨error', -, -, -, hadd⟩ | ⟨f, -, -, -, hadd⟩ := c.add_cases e
  · rw [hadd] at h
    cases h
  · rw [hadd]
  · rw [hadd] at h
    cases h

/-- The endpoint of an observed flow is not blocked. -/
theorem not_isBlocked_of_mem {exchanges : List Exchange} {f : Flow}
    (hf : f ∈ observedFlows config exchanges) : ¬ config.isBlocked f.service f.endpoint := by
  obtain ⟨g, hg, rfl⟩ := List.mem_map.1 hf
  obtain ⟨e, -, he⟩ := List.mem_filterMap.1 hg
  have hdecode := decode_eq_of_flowOf? he
  have hblocked : ¬ isBlocked config e := by
    intro h
    rw [flowOf?, if_pos h] at he
    cases he
  unfold isBlocked at hblocked
  unfold Exchange.decode at hdecode
  split at hdecode
  · cases hdecode
  · rename_i target htarget
    rw [htarget] at hblocked
    split at hdecode
    · cases hdecode
    · cases hdecode
      exact hblocked

/-- Exchanges that are dropped or blocked do not show in the schema. -/
theorem captureSchema_processedOf (config : Config) (exchanges : List Exchange) :
    captureSchema config (processedOf config exchanges) = captureSchema config exchanges := by
  obtain ⟨s, hs, hsum⟩ := captureSchema_summarizes config exchanges
  obtain ⟨t, ht, htsum⟩ := captureSchema_summarizes config (processedOf config exchanges)
  simp only [observedFlows, observedEntities, filterMap_flowOf?_processedOf] at hsum htsum
  rw [hs, ht, htsum.unique hsum]

/-- No endpoint of a summary is blocked. -/
theorem not_isBlocked_of_flow? {s : Schema} {exchanges : List Exchange} {entities : List Entity}
    (hs : s.Summarizes (observedFlows config exchanges) entities) {service endpoint : String}
    {f : Flow} (hf : s.flow? service endpoint = some f) :
    ¬ config.isBlocked service endpoint := by
  obtain ⟨g, hg, hat⟩ := hs.exists_isAt_of_flow? hf
  obtain ⟨rfl, rfl⟩ := Flow.isAt_iff.1 hat
  exact not_isBlocked_of_mem hg

/-! ## Runs -/

/-- What is asked of a capture. -/
inductive Call
  | add (e : Exchange)
  | addAll (exchanges : List Exchange)

/-- The exchanges that are handed in. -/
def Call.exchanges : Call → List Exchange
  | add e => [e]
  | addAll exchanges => exchanges

/-- The capture after a call. -/
def call (c : Capture) : Call → Capture
  | .add e => (c.add e).1
  | .addAll exchanges => c.addAll exchanges

/-- A capture from its start on. -/
def run (config : Config) (calls : List Call) : Capture := calls.foldl call { config }

/-- How exchanges are divided among calls does not matter. -/
theorem run_eq (config : Config) (calls : List Call) :
    run config calls = addAll { config } (calls.flatMap Call.exchanges) := by
  have hcalls (c : Capture) : calls.foldl call c = c.addAll (calls.flatMap Call.exchanges) := by
    induction calls generalizing c with
    | nil => rfl
    | cons first calls ih =>
      rw [List.foldl_cons, ih, List.flatMap_cons]
      cases first with
      | add e => rfl
      | addAll exchanges => exact (List.foldl_append ..).symm
  exact hcalls { config }

/-- **The books of a capture balance, and failed exchanges leave no trace.** After any calls every
exchange that was handed in is counted once, and the numbers of endpoints and entities are those of
the schema. The schema is that of the exchanges which were neither dropped nor blocked alone, and
none of its endpoints is blocked. An exchange that is answered by an error changes nothing but the
number of dropped ones, and one of a blocked endpoint nothing but the number of blocked ones. -/
theorem run_balanced (config : Config) (calls : List Call) :
    ∃ s, (run config calls).schema = .ok s ∧
      (run config calls).stats.processed + (run config calls).stats.dropped +
        (run config calls).stats.blocked = (calls.flatMap Call.exchanges).length ∧
      (run config calls).stats.processed =
        (processedOf config (calls.flatMap Call.exchanges)).length ∧
      (run config calls).stats.endpoints = s.endpointCount ∧
      (run config calls).stats.entities = s.entities.size ∧
      captureSchema config (processedOf config (calls.flatMap Call.exchanges)) = .ok s ∧
      (∀ service endpoint f, s.flow? service endpoint = some f →
        ¬ config.isBlocked service endpoint) ∧
      ∀ e, (∀ error, ((run config calls).add e).2 = some error →
          ((run config calls).add e).1 =
            { run config calls with dropped := (run config calls).dropped + 1 }) ∧
        (isBlocked config e →
          (run config calls).add e =
            ({ run config calls with blocked := (run config calls).blocked + 1 }, none)) := by
  rw [run_eq]
  generalize calls.flatMap Call.exchanges = exchanges
  obtain ⟨s, hs, hsum⟩ := schema_summarizes (addAll { config } exchanges)
  obtain ⟨hconfig, hflows, -⟩ := addAll_eq { config } exchanges
  obtain ⟨hendpoints, hentities⟩ := ((indexed_start config).addAll exchanges).names_eq hsum
  obtain ⟨hprocessed, hdropped, hblocked⟩ := counts_addAll { config } exchanges
  simp only [Nat.zero_add] at hprocessed hdropped hblocked
  rw [hflows, List.nil_append] at hsum
  refine ⟨s, hs, ?_, ?_, ?_, ?_, ?_, fun _ _ _ => not_isBlocked_of_flow? hsum, fun e =>
    ⟨fun _ => add_fst_of_error, fun he => add_of_isBlocked (hconfig.symm ▸ he)⟩⟩
  · simp only [stats, hprocessed, hdropped, hblocked, count_outcomes, List.length_map]
  · rw [stats, hprocessed, count_processed]
  · rw [stats, hendpoints, Schema.sumBy_size_endpointNames]
  · rw [stats, hentities, Schema.size_entityNames]
  · rw [captureSchema_processedOf]
    exact hs

/-- A configuration that leaves out a service. -/
def internalBlocked : Config := ({} : Config).blockService "internal"

/-- An exchange of an endpoint, one of a blocked endpoint and one of none. -/
def mixedCalls : List Call :=
  [.add { method := "GET", path := "/orders/list" },
    .addAll [{ method := "GET", path := "/internal/ping" }, { method := "GET", path := "/orders" }]]

theorem run_balanced_mixedCalls : ∃ s f, (run internalBlocked mixedCalls).schema = .ok s ∧
    s.flow? "orders" "list" = some f ∧ ¬ internalBlocked.isBlocked "orders" "list" ∧
    (run internalBlocked mixedCalls).stats = ⟨1, 1, 1, s.endpointCount, s.entities.size⟩ ∧
    ((run internalBlocked mixedCalls).add { method := "GET", path := "/users" }).2 =
      some (.malformedPath "/users") ∧
    ((run internalBlocked mixedCalls).add { method := "GET", path := "/users" }).1 =
      { run internalBlocked mixedCalls with
        dropped := (run internalBlocked mixedCalls).dropped + 1 } ∧
    isBlocked internalBlocked { method := "GET", path := "/internal/users" } ∧
    (run internalBlocked mixedCalls).add { method := "GET", path := "/internal/users" } =
      ({ run internalBlocked mixedCalls with
        blocked := (run internalBlocked mixedCalls).blocked + 1 }, none) := by
  obtain ⟨s, hs, -, -, hendpoints, hentities, -, hblocked, hadd⟩ :=
    run_balanced internalBlocked mixedCalls
  obtain ⟨t, ht, hsum⟩ := schema_summarizes (run internalBlocked mixedCalls)
  rw [hs, Except.ok.injEq] at ht
  subst ht
  obtain ⟨f, hf⟩ : ∃ f, s.flow? "orders" "list" = some f := by
    rw [← Option.isSome_iff_exists, hsum.flow?_eq]
    decide +kernel
  have herror : ((run internalBlocked mixedCalls).add { method := "GET", path := "/users" }).2 =
      some (.malformedPath "/users") := by decide +kernel
  have hinternal : isBlocked internalBlocked { method := "GET", path := "/internal/users" } := by
    decide +kernel
  refine ⟨s, f, hs, hf, hblocked _ _ f hf, ?_, herror, ?_, hinternal, ?_⟩
  · rw [← hendpoints, ← hentities]
    decide +kernel
  · exact (hadd _).1 _ herror
  · exact (hadd _).2 hinternal

end Capture

end TrafficSchema
