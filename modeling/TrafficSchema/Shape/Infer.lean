import TrafficSchema.Shape.Merge
import TrafficSchema.Scalar.Infer
import TrafficSchema.Json.Value

/-!
# The shape of a JSON value

`Shape.infer` replaces every scalar of a JSON value by its tag. The items of an array are seen
as repeated observations of one thing, so the shape of an array is that of all its items
together, widened; an empty array tells nothing.
-/

namespace TrafficSchema

open Json

/-- The tag of a number. One that is kept as it was written is always a `float`. -/
def Tag.ofNumber : Number → Tag
  | .integer n => Tag.infer (toString n)
  | .real _ => float

mutual

/-- The shape of a JSON value. -/
def Shape.infer : Value → Shape
  | .null => .scalar .none
  | .bool _ => .scalar .bool
  | .number n => .scalar (Tag.ofNumber n)
  | .string s => .scalar (Tag.infer s)
  | .array items => Shape.inferItems items (.scalar .none)
  | .object members => .tree (ShapeTree.inferMembers members ∅)

/-- Widens a shape by the shapes of all items. -/
def Shape.inferItems : List Value → Shape → Shape
  | [], shape => shape
  | item :: rest, shape => Shape.inferItems rest (shape.unify .widen (Shape.infer item))

/-- Adds the shapes of all members to a tree. -/
def ShapeTree.inferMembers : List (String × Value) → ShapeTree → ShapeTree
  | [], t => t
  | (key, value) :: rest, t => ShapeTree.inferMembers rest (t.insert key (Shape.infer value))

end

end TrafficSchema
