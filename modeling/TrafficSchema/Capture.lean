import TrafficSchema.Schema.Basic

/-!
# Captures

A capture takes exchanges one by one and gathers what they show. Exchanges of blocked endpoints
are left out and only counted; so are exchanges that cannot be decoded, which do not affect the
others. At any time the observations can be folded into a schema (`Capture.schema`).
-/

namespace TrafficSchema

/-- What has been captured. -/
structure Capture where
  config : Config
  /-- The flows in the order of observation. -/
  flows : List Flow := []
  /-- The entities in the order of discovery. -/
  entities : List Entity := []
  /-- The endpoints seen, by service. -/
  endpointNames : Dict NameSet := ∅
  /-- The names of the entities seen. -/
  entityNames : NameSet := ∅
  processed : Nat := 0
  dropped : Nat := 0
  blocked : Nat := 0

/-- The counts of a capture. -/
structure CaptureStats where
  processed : Nat
  dropped : Nat
  blocked : Nat
  endpoints : Nat
  entities : Nat
  deriving DecidableEq

/-- The counts of a capture as a JSON value. -/
def CaptureStats.toJson (s : CaptureStats) : Json.Value :=
  .object
    [("exchangesProcessed", .number (.integer s.processed)),
      ("exchangesDropped", .number (.integer s.dropped)),
      ("flowsBlocked", .number (.integer s.blocked)),
      ("endpoints", .number (.integer s.endpoints)),
      ("entities", .number (.integer s.entities))]

namespace Capture

/-- Whether an exchange belongs to a blocked endpoint. -/
def isBlocked (config : Config) (e : Exchange) : Bool :=
  match Target.ofPath? e.path with
  | none => false
  | some target => config.isBlocked target.service target.endpoint

/-- Adds a decoded flow, taking the entities out of its response. -/
def addFlow (c : Capture) (f : Flow) : Capture :=
  let extraction := extractEntities f.responseStructure
  { c with
    flows := c.flows ++ [{ f with responseStructure := extraction.residual }]
    entities := c.entities ++ extraction.entities.values
    endpointNames := c.endpointNames.upsert f.service fun names =>
      NameSet.add (names.getD ∅) f.endpoint
    entityNames := extraction.entities.values.foldl (fun names e => NameSet.add names e.name)
      c.entityNames
    processed := c.processed + 1 }

/-- Adds an exchange. If it cannot be decoded the error is returned too. -/
def add (c : Capture) (e : Exchange) : Capture × Option ExchangeError :=
  if isBlocked c.config e then ({ c with blocked := c.blocked + 1 }, none)
  else match e.decode c.config with
    | .error error => ({ c with dropped := c.dropped + 1 }, some error)
    | .ok f => (c.addFlow f, none)

/-- Adds exchanges, whether or not they can be decoded. -/
def addAll (c : Capture) (exchanges : List Exchange) : Capture :=
  exchanges.foldl (fun c e => (c.add e).1) c

/-- The counts so far. -/
def stats (c : Capture) : CaptureStats where
  processed := c.processed
  dropped := c.dropped
  blocked := c.blocked
  endpoints := c.endpointNames.sumBy Dict.size
  entities := c.entityNames.size

/-- Folds all observations into a schema. -/
def schema (c : Capture) : Except SchemaError Schema := do
  let entities ← Entity.collect c.entities
  return ⟨(FlowGroups.ofFlows c.flows).fold, entities⟩

end Capture

/-- The schema of a whole list of exchanges. -/
def captureSchema (config : Config) (exchanges : List Exchange) : Except SchemaError Schema :=
  (Capture.addAll { config } exchanges).schema

end TrafficSchema
