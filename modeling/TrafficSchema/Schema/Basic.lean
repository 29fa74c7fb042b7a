import TrafficSchema.Entity
import TrafficSchema.Flow.Basic

/-!
# Schemas

A schema holds what is known of an interface: a flow for each endpoint, and the entities. Both
are held under keys. These are usually the names that the flow or the entity carries itself
(`Schema.insertFlow`, `Schema.insertEntity`), but need not be.
-/

namespace TrafficSchema

/-- What is known of an interface. -/
structure Schema where
  /-- The flows by service and endpoint. -/
  endpoints : Endpoints := ∅
  /-- The entities by name. -/
  entities : Dict Entity := ∅
  deriving DecidableEq, Inhabited

namespace Schema

/-- Whether nothing at all is known. -/
def isEmpty (s : Schema) : Bool := s.endpoints.isEmpty && s.entities.isEmpty

/-- The number of endpoints. -/
def endpointCount (s : Schema) : Nat := s.endpoints.sumBy Dict.size

/-- All flows by service and then by endpoint. -/
def flows (s : Schema) : List Flow := s.endpoints.values.flatMap Dict.values

/-- The flow of an endpoint. -/
def flow? (s : Schema) (service endpoint : String) : Option Flow := do
  (← s.endpoints.get? service).get? endpoint

/-- The entity with a name. -/
def entity? (s : Schema) (name : String) : Option Entity := s.entities.get? name

/-- The names of the entities. -/
def entityNames (s : Schema) : NameSet := s.entities.map fun _ _ => ()

/-- Holds a flow under the given keys, instead of what was there. -/
def putFlow (s : Schema) (service endpoint : String) (f : Flow) : Schema :=
  { s with
    endpoints := s.endpoints.upsert service fun flows => (flows.getD ∅).insert endpoint f }

/-- Holds a flow under its own names, instead of what was there. -/
def insertFlow (s : Schema) (f : Flow) : Schema := s.putFlow f.service f.endpoint f

/-- Holds an entity under the given key, instead of what was there. -/
def putEntity (s : Schema) (key : String) (e : Entity) : Schema :=
  { s with entities := s.entities.insert key e }

/-- Holds an entity under its own name, instead of what was there. -/
def insertEntity (s : Schema) (e : Entity) : Schema := s.putEntity e.name e

/-- Adds a service without endpoints unless the service is there. -/
def putService (s : Schema) (service : String) : Schema :=
  { s with endpoints := s.endpoints.upsert service fun flows => flows.getD ∅ }

/-- The schema without the references of its flows to exchanges. -/
def contract (s : Schema) : Schema :=
  { s with endpoints := s.endpoints.map fun _ flows => flows.map fun _ f => f.contract }

/-- Whether two schemas agree in all that is written to a file, and in the names that their
entities carry. -/
def contractEq (s t : Schema) : Bool := s.contract == t.contract

end Schema

end TrafficSchema
