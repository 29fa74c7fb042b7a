import TrafficSchema.Flow.Notation
import TrafficSchema.Schema.Basic

/-!
# Schema files

A schema file is a JSON object with the flows under `endpoints`, by service and endpoint, and
the entities under `entities`, where an entity is only its properties. Either may be missing or
`null`.

A flow that does not say its service or its endpoint gets them from the keys it stands under.
An entity gets its name from its key.
-/

namespace TrafficSchema

open Json

namespace Schema

/-! ## Writing -/

/-- The endpoints of a schema as a JSON value. -/
def endpointsJson (endpoints : Endpoints) : Value :=
  .object (endpoints.entries.map fun (service, flows) =>
    (service, .object (flows.entries.map fun (endpoint, f) => (endpoint, f.toJson))))

/-- The entities of a schema as a JSON value. -/
def entitiesJson (entities : Dict Entity) : Value :=
  .object (entities.entries.map fun (name, e) => (name, e.properties.toJson))

/-- A schema as a JSON value. -/
def toJson (s : Schema) : Value :=
  .object [("endpoints", endpointsJson s.endpoints), ("entities", entitiesJson s.entities)]

/-- The text of a schema file. -/
def toText (layout : Layout) (s : Schema) : String := s.toJson.text layout

/-! ## Reading -/

/-- The contents of a schema file. -/
structure Document where
  endpoints : Endpoints := ∅
  entities : Dict ShapeTree := ∅

/-- The fields of a schema file in the order in which an array gives them. -/
def Document.jsonFields : List (RecordField Document) :=
  [⟨"endpoints", fun depth node d => do
      let decoder := fun (node : Node) => node.toDict (fun depth node =>
        node.toDict Flow.ofNode depth) depth
      return { d with endpoints := ← Node.orDefault decoder node }⟩,
    ⟨"entities", fun depth node d => do
      let decoder := fun (node : Node) => node.toDict ShapeTree.ofNode depth
      return { d with entities := ← Node.orDefault decoder node }⟩]

/-- A flow under the keys of a schema file. -/
def fillNames (service endpoint : String) (f : Flow) : Flow :=
  { f with
    service := if f.service = "" then service else f.service
    endpoint := if f.endpoint = "" then endpoint else f.endpoint }

/-- The schema that the contents of a file stand for. -/
def ofDocument (d : Document) : Schema where
  endpoints := d.endpoints.map fun service flows => flows.map fun endpoint f =>
    fillNames service endpoint f
  entities := d.entities.map fun name properties => ⟨name, properties⟩

/-- The schema that a JSON value stands for. -/
def ofNode (depth : Nat) (node : Node) : Decoded Schema := do
  return ofDocument (← node.toRecord Document.jsonFields {} depth)

/-- Reads the text of a schema file. -/
def ofText (text : String) : Except SchemaError Schema :=
  match decodeText (ofNode Node.maxDepth) text with
  | .ok s => .ok s
  | .error e => .error (.invalidSchema e)

end Schema

end TrafficSchema
