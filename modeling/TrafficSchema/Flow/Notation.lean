import TrafficSchema.Flow.Basic
import TrafficSchema.Shape.Notation

/-!
# Flows in schema files

A schema file writes a flow as an object with nine fields, in the order of their names. Reading
takes any of them as optional, and `null` for the default.
-/

namespace TrafficSchema

open Json

/-- A content type as a JSON value. -/
def ContentType.toJson (c : ContentType) : Value := .string c.name

/-- The content type with a name. -/
def ContentType.ofName? (name : String) : Option ContentType :=
  if name = "json" then some .json
  else if name = "xml" then some .xml
  else if name = "" then some .unknown
  else none

/-- The content type that a JSON value stands for: its name, or an object whose only member has
that name and the value `null`. -/
def ContentType.ofNode : Nat → Node → Decoded ContentType
  | _, .string (some name) | _ + 1, .object [(some name, .null)] =>
    match ofName? name with
    | some c => .ok c
    | none => .error .malformed
  | _, _ => .error .malformed

namespace Flow

/-- A flow as a JSON value. -/
def toJson (f : Flow) : Value :=
  .object
    [("content_parameters", f.contentParameters.toJson),
      ("content_structure", f.contentStructure.toJson),
      ("content_type", f.contentType.toJson),
      ("endpoint", .string f.endpoint),
      ("method", .string f.method),
      ("query_parameters", f.queryParameters.toJson),
      ("response_gzipped", .bool f.responseGzipped),
      ("response_structure", f.responseStructure.toJson),
      ("service", .string f.service)]

/-- A field of a flow for which `null` may stand. -/
def jsonField {α : Type} [Inhabited α] (name : String) (decoder : Nat → Node → Decoded α)
    (set : Flow → α → Flow) : RecordField Flow where
  name := name
  decode depth node f := do return set f (← Node.orDefault (decoder depth) node)

/-- The fields of a flow in the order in which an array gives them. -/
def jsonFields : List (RecordField Flow) :=
  [jsonField "content_parameters" ShapeTree.ofNode fun f t => { f with contentParameters := t },
    jsonField "content_structure" ShapeTree.ofNode fun f t => { f with contentStructure := t },
    jsonField "content_type" ContentType.ofNode fun f c => { f with contentType := c },
    jsonField "endpoint" (fun _ => Node.toText) fun f s => { f with endpoint := s },
    jsonField "method" (fun _ => Node.toText) fun f s => { f with method := s },
    jsonField "query_parameters" ShapeTree.ofNode fun f t => { f with queryParameters := t },
    jsonField "response_gzipped" (fun _ => Node.toBool) fun f b => { f with responseGzipped := b },
    jsonField "response_structure" ShapeTree.ofNode fun f t => { f with responseStructure := t },
    jsonField "service" (fun _ => Node.toText) fun f s => { f with service := s }]

/-- The flow that a JSON value stands for. -/
def ofNode (depth : Nat) (node : Node) : Decoded Flow := node.toRecord jsonFields {} depth

/-- Reads a flow. -/
def ofText (text : String) : Decoded Flow := decodeText (ofNode Node.maxDepth) text

end Flow

end TrafficSchema
