import TrafficSchema.Shape.Basic
import TrafficSchema.Json.Record
import TrafficSchema.Json.Printer

/-!
# Shapes in schema files

A schema file writes the tag `none` as `null`, any other tag as its name, and a tree as an
object. Reading admits more than writing produces: an empty list stands for the empty tree
where a shape is expected, `none` has two further spellings (`Tag.ofName`), and of several
members with one key the last counts.
-/

namespace TrafficSchema

open Json

/-- What is said about a shape that cannot be read; of faults that are not about shapes nothing
is said. -/
def Json.DecodeError.phrase? : DecodeError → Option String
  | .malformed => none
  | .listForShape => some "only an empty list may stand in for a shape"
  | .structureForTag => some "expected a type name, found an object"
  | .valueForShape => some "expected a type name, null or a nested object"

/-! ## Writing -/

/-- A tag as a JSON value. -/
def Tag.toJson : Tag → Value
  | none => .null
  | tag => .string tag.persistedName

/-- Fields as the members of a JSON object. -/
def Fields.toMembers : Fields → List (String × Value)
  | nil => []
  | leaf key tag rest => (key, tag.toJson) :: rest.toMembers
  | node key children rest => (key, .object children.toMembers) :: rest.toMembers

/-- A tree as a JSON value. -/
def ShapeTree.toJson (t : ShapeTree) : Value := .object t.fields.toMembers

/-- A shape as a JSON value. -/
def Shape.toJson : Shape → Value
  | scalar tag => tag.toJson
  | tree t => t.toJson

/-! ## Reading -/

mutual

/-- The shape that a JSON value stands for. -/
def Shape.ofNode (depth : Nat) : Node → Decoded Shape
  | .null => .ok (.scalar .none)
  | .bool _ => .error .valueForShape
  | .number (some _) => .error .valueForShape
  | .string (some s) => .ok (.scalar (Tag.ofName s))
  | .array items =>
    match depth, items with
    | 0, _ => .error .malformed
    | _ + 1, [] => .ok (.tree ∅)
    | _ + 1, item :: _ => .error (if item.isBroken then .malformed else .listForShape)
  | .object members =>
    match depth with
    | 0 => .error .malformed
    | depth + 1 => do return .tree (← ShapeTree.ofMembers depth members ∅)
  | _ => .error .malformed

/-- Adds the members of a JSON object to a tree. -/
def ShapeTree.ofMembers (depth : Nat) : List Member → ShapeTree → Decoded ShapeTree
  | [], t => .ok t
  | (none, _) :: _, _ => .error .malformed
  | (some key, value) :: rest, t => do
    let shape ← Shape.ofNode depth value
    ShapeTree.ofMembers depth rest (t.insert key shape)

end

/-- The tree that a JSON object stands for; here no list stands in for it. -/
def ShapeTree.ofNode (depth : Nat) : Node → Decoded ShapeTree
  | .object members =>
    match depth with
    | 0 => .error .malformed
    | depth + 1 => ShapeTree.ofMembers depth members ∅
  | _ => .error .malformed

/-- The tag that a JSON value stands for. -/
def Tag.ofNode (depth : Nat) (node : Node) : Decoded Tag := do
  match ← Shape.ofNode depth node with
  | .scalar tag => .ok tag
  | .tree _ => .error .structureForTag

/-- Reads a tag. -/
def Tag.ofText (text : String) : Decoded Tag := decodeText (Tag.ofNode Node.maxDepth) text

/-- Reads a shape. -/
def Shape.ofText (text : String) : Decoded Shape := decodeText (Shape.ofNode Node.maxDepth) text

/-- Reads a tree. -/
def ShapeTree.ofText (text : String) : Decoded ShapeTree :=
  decodeText (ShapeTree.ofNode Node.maxDepth) text

end TrafficSchema
