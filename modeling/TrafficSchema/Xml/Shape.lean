import TrafficSchema.Shape.Merge
import TrafficSchema.Scalar.Infer
import TrafficSchema.Xml.Event

/-!
# The shape of an XML document

The shape of a document is a tree with one field, named after the root element. The shape of an
element has the tags of its attributes under the key `properties`, if there are any, and a field
for the tag of each child; children of one tag are repeated observations of one thing and are
widened into one shape.

`shapeOfEvents` computes it from the events of a document, keeping the shapes of the open
elements on a stack (`Builder`).
-/

namespace TrafficSchema.Xml

/-- Why a document has no shape. -/
inductive Fault
  /-- The bytes are not UTF-8. -/
  | encoding
  /-- The text is not well formed. -/
  | malformed
  | badAttribute (tag : String)
  | badAttributeValue (tag : String)
  | textOutsideRoot
  | secondRoot
  | unclosed (tag : String)
  | noRoot
  /-- An element is nested too deeply. -/
  | tooDeep (depth limit : Nat)
  deriving DecidableEq

/-- An element and what is known of its shape. -/
structure Element where
  tag : String
  node : ShapeTree
  deriving DecidableEq

/-- The open elements, the innermost first, and the root element once it is closed. -/
structure Builder where
  stack : List Element
  root : Option Element

namespace Builder

/-- Nothing has been read yet. -/
def start : Builder := ⟨[], none⟩

/-- The tags of the attributes of an element. -/
def attributeTags (tag : String) : List Attribute → ShapeTree → Except Fault ShapeTree
  | [], t => .ok t
  | .pair name value :: rest, t =>
    attributeTags tag rest (t.observe name (.scalar (Tag.infer value)))
  | .badValue :: _, _ => .error (.badAttributeValue tag)
  | .malformed :: _, _ => .error (.badAttribute tag)

/-- The shape of an element that has attributes with the given tags and no children yet. -/
def nodeOf (attributes : ShapeTree) : ShapeTree :=
  if attributes.isEmpty then ∅ else ShapeTree.singleton attributesKey (.tree attributes)

/-- An element that is opened now. -/
def element (b : Builder) (limit : Nat) (tag : String) (attributes : List Attribute) :
    Except Fault Element :=
  if b.stack.isEmpty && b.root.isSome then .error .secondRoot
  else if b.stack.length + 1 > limit then .error (.tooDeep (b.stack.length + 1) limit)
  else do return ⟨tag, nodeOf (← attributeTags tag attributes ∅)⟩

/-- Puts a complete element into the one around it. -/
def close (e : Element) (stack : List Element) (root : Option Element) : Builder :=
  match stack with
  | [] => ⟨[], some e⟩
  | parent :: stack => ⟨⟨parent.tag, parent.node.observe e.tag (.tree e.node)⟩ :: stack, root⟩

/-- Takes one event. -/
def step (limit : Nat) (b : Builder) : Event → Except Fault Builder
  | .opened tag attributes => do
    return ⟨(← b.element limit tag attributes) :: b.stack, b.root⟩
  | .emptied tag attributes => do
    return close (← b.element limit tag attributes) b.stack b.root
  | .closed =>
    match b.stack with
    | [] => .error .malformed
    | e :: stack => .ok (close e stack b.root)
  | .text => if b.stack.isEmpty then .error .textOutsideRoot else .ok b
  | .skipped => .ok b
  | .fault => .error .malformed

/-- The shape of the document at its end. -/
def finish (b : Builder) : Except Fault ShapeTree :=
  match b.stack, b.root with
  | e :: _, _ => .error (.unclosed e.tag)
  | [], none => .error .noRoot
  | [], some e => .ok (ShapeTree.singleton e.tag (.tree e.node))

end Builder

/-- The shape of the document with the given events, its elements nested at most `limit`
deep. -/
def shapeOfEvents (limit : Nat) (events : List Event) : Except Fault ShapeTree := do
  (← events.foldlM (Builder.step limit) .start).finish

/-- The shape of a document. -/
def shapeOf (limit : Nat) (body : ByteArray) : Except Fault ShapeTree :=
  match String.fromUTF8? body with
  | none => .error .encoding
  | some text => shapeOfEvents limit (Event.read text)

end TrafficSchema.Xml
