import TrafficSchema.Schema.Basic

/-!
# Merging schemas

`Schema.merge` joins two schemas that were inferred separately: whatever both have is widened.
A schema without endpoints counts as nothing at all, and the other one is the result.
`Schema.override` applies corrections to a schema: whatever both have is merged so that the
corrections win.

Both fail if some key holds entities of different names in the two schemas.
-/

namespace TrafficSchema

namespace Schema

/-- Merges an entity into what a key holds. -/
def combineEntity (mode : MergeMode) (entities : Dict Entity) (key : String) (e : Entity) :
    Except SchemaError (Dict Entity) := do
  match entities.get? key with
  | none => return entities.insert key e
  | some old => return entities.insert key (← old.merge mode e)

/-- Merges the entities of two schemas key by key. -/
def combineEntities (mode : MergeMode) (d e : Dict Entity) : Except SchemaError (Dict Entity) :=
  e.foldlM (combineEntity mode) d

/-- Merges the flows of two schemas key by key. -/
def combineEndpoints (mode : MergeMode) (d e : Endpoints) : Endpoints :=
  d.unionWith (fun flows others => flows.unionWith (Flow.merge mode) others) e

/-- Merges two schemas key by key. -/
def combine (mode : MergeMode) (s t : Schema) : Except SchemaError Schema := do
  let entities ← combineEntities mode s.entities t.entities
  return ⟨combineEndpoints mode s.endpoints t.endpoints, entities⟩

/-- Joins two schemas. -/
def merge (s t : Schema) : Except SchemaError Schema :=
  if t.endpoints.isEmpty then .ok s
  else if s.endpoints.isEmpty then .ok t
  else combine .widen s t

/-- Joins schemas from left to right, starting with the first. -/
def mergeAll : List Schema → Except SchemaError Schema
  | [] => .ok {}
  | s :: rest => rest.foldlM merge s

/-- Applies corrections to a schema. -/
def override (s corrections : Schema) : Except SchemaError Schema :=
  combine .override s corrections

end Schema

end TrafficSchema
