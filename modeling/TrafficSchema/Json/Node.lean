import TrafficSchema.Json.Token

/-!
# JSON nodes

`Node.read` builds a tree from the tokens of a JSON text. It never fails: where the text breaks
off or goes wrong, the tree holds the node `broken` and ends there, in all enclosing arrays and
objects too. Whoever decodes the tree in the order of the text therefore meets a fault of form
exactly where the text has it, and may well have stopped before for reasons of their own.

The tokens are read by an automaton with a stack: `Reader.step` takes one token, `Frame` is an
array or object that is still open. `Value.ofNode` is the decoding that accepts every value.
-/

namespace TrafficSchema.Json

/-- A value as far as it could be read. -/
inductive Node
  | null
  | bool (b : Bool)
  /-- A number, absent if it is out of range. -/
  | number (n : Option Number)
  /-- A string, absent if it holds half of a surrogate pair. -/
  | string (s : Option String)
  | array (items : List Node)
  | object (members : List (Option String × Node))
  /-- Here the text stops being JSON. -/
  | broken
  deriving Inhabited

/-- A text as far as it could be read. -/
structure Document where
  root : Node
  /-- Nothing but white space follows the value. -/
  complete : Bool

/-! ## The automaton -/

/-- A member of an object: the key may hold half of a surrogate pair. -/
abbrev Member := Option String × Node

/-- An open array or object, what it holds so far in reverse order. -/
inductive Frame
  | array (before : List Node)
  /-- The value of the member `key` is being read. -/
  | object (before : List Member) (key : Option String)

/-- What has been read, and what may follow. -/
inductive Reader
  /-- A value has to follow. -/
  | value (stack : List Frame)
  /-- An array was opened: an item or its end follows. -/
  | firstItem (stack : List Frame)
  /-- An item was read: a comma or the end of the array follows. -/
  | afterItem (items : List Node) (stack : List Frame)
  /-- An object was opened: a key or its end follows. -/
  | firstKey (stack : List Frame)
  /-- A comma was read in an object: a key follows. -/
  | nextKey (members : List Member) (stack : List Frame)
  /-- A key was read: a colon follows. -/
  | afterKey (members : List Member) (key : Option String) (stack : List Frame)
  /-- A member was read: a comma or the end of the object follows. -/
  | afterMember (members : List Member) (stack : List Frame)
  /-- The value is complete: nothing follows. -/
  | done (root : Node)
  /-- A token stood where it must not. -/
  | failed (document : Document)

namespace Reader

/-- Puts a complete value in its place. -/
def close (node : Node) : List Frame → Reader
  | [] => done node
  | .array before :: stack => afterItem (node :: before) stack
  | .object before key :: stack => afterMember ((key, node) :: before) stack

/-- Closes all open arrays and objects around a value. -/
def wrap (node : Node) : List Frame → Node
  | [] => node
  | .array before :: stack => wrap (.array (node :: before).reverse) stack
  | .object before key :: stack => wrap (.object ((key, node) :: before).reverse) stack

/-- What is known of the text if the next token is wrong or missing. -/
def abandon : Reader → Document
  | value stack => ⟨wrap .broken stack, false⟩
  | firstItem stack => ⟨wrap (.array [.broken]) stack, false⟩
  | afterItem items stack => ⟨wrap .broken (.array items :: stack), false⟩
  | firstKey stack => ⟨wrap (.object [(none, .broken)]) stack, false⟩
  | nextKey members stack | afterMember members stack =>
    ⟨wrap .broken (.object members none :: stack), false⟩
  | afterKey members key stack => ⟨wrap .broken (.object members key :: stack), false⟩
  | done root => ⟨root, false⟩
  | failed document => document

/-- Reads a token where a value has to stand. -/
def startValue (stack : List Frame) : Token → Option Reader
  | .openObject => some (firstKey stack)
  | .openArray => some (firstItem stack)
  | .null => some (close .null stack)
  | .bool b => some (close (.bool b) stack)
  | .number n => some (close (.number n) stack)
  | .string s => some (close (.string s) stack)
  | _ => none

/-- The state after a token, unless the token is wrong. -/
def step? : Reader → Token → Option Reader
  | value stack, token => startValue stack token
  | firstItem stack, .closeArray => some (close (.array []) stack)
  | firstItem stack, token => startValue (.array [] :: stack) token
  | afterItem items stack, .closeArray => some (close (.array items.reverse) stack)
  | afterItem items stack, .comma => some (value (.array items :: stack))
  | firstKey stack, .closeObject => some (close (.object []) stack)
  | firstKey stack, .string key => some (afterKey [] key stack)
  | nextKey members stack, .string key => some (afterKey members key stack)
  | afterKey members key stack, .colon => some (value (.object members key :: stack))
  | afterMember members stack, .closeObject => some (close (.object members.reverse) stack)
  | afterMember members stack, .comma => some (nextKey members stack)
  | _, _ => none

/-- The state after a token. -/
def step (state : Reader) (token : Token) : Reader :=
  (state.step? token).getD (failed state.abandon)

/-- What is known of the text at its end. -/
def finish : Reader → Document
  | done root => ⟨root, true⟩
  | state => state.abandon

end Reader

/-- Reads a text. -/
def Document.read (text : List Char) : Document :=
  ((Token.scan text).foldl Reader.step (.value [])).finish

/-! ## Decoding -/

/-- Why a node cannot be decoded. -/
inductive DecodeError
  /-- The text is no JSON, or a value has not the form that its place asks for. -/
  | malformed
  /-- A list with items stands for a shape. -/
  | listForShape
  /-- A structure stands for a tag. -/
  | structureForTag
  /-- A number or a truth value stands for a shape. -/
  | valueForShape
  deriving DecidableEq

/-- What a decoder gives. -/
abbrev Decoded := Except DecodeError

namespace Node

/-- The number of arrays and objects that may be open at the same time in what is decoded. -/
def maxDepth : Nat := 127

mutual

/-- Whether the text goes wrong within a value. Apart from that anything is accepted: nesting
of any depth, numbers of any size, halves of surrogate pairs. -/
def isBroken : Node → Bool
  | array items => anyBroken items
  | object members => anyMemberBroken members
  | broken => true
  | _ => false

/-- Whether the text goes wrong within one of some values. -/
def anyBroken : List Node → Bool
  | [] => false
  | item :: rest => item.isBroken || anyBroken rest

/-- Whether the text goes wrong within one of some members. -/
def anyMemberBroken : List Member → Bool
  | [] => false
  | (_, value) :: rest => value.isBroken || anyMemberBroken rest

end

/-- Passes over a value that nobody asks for. -/
def skip (node : Node) : Decoded Unit :=
  if node.isBroken then .error .malformed else .ok ()

/-- The text of a string. -/
def toText : Node → Decoded String
  | string (some s) => .ok s
  | _ => .error .malformed

/-- A truth value. -/
def toBool : Node → Decoded Bool
  | bool b => .ok b
  | _ => .error .malformed

end Node

namespace Value

mutual

/-- Decodes any value whose nesting stays within `depth`. -/
def ofNode (depth : Nat) : Node → Decoded Value
  | .null => .ok .null
  | .bool b => .ok (.bool b)
  | .number (some n) => .ok (.number n)
  | .string (some s) => .ok (.string s)
  | .array items =>
    match depth with
    | 0 => .error .malformed
    | depth + 1 => do return .array (← ofItems depth items)
  | .object members =>
    match depth with
    | 0 => .error .malformed
    | depth + 1 => do return .object (← ofMembers depth members)
  | _ => .error .malformed

/-- Decodes the items of an array. -/
def ofItems (depth : Nat) : List Node → Decoded (List Value)
  | [] => .ok []
  | item :: rest => do
    let item ← ofNode depth item
    let rest ← ofItems depth rest
    return item :: rest

/-- Decodes the members of an object. -/
def ofMembers (depth : Nat) : List Member → Decoded (List (String × Value))
  | [] => .ok []
  | (none, _) :: _ => .error .malformed
  | (some key, value) :: rest => do
    let value ← ofNode depth value
    let rest ← ofMembers depth rest
    return (key, value) :: rest

end

end Value

/-- Decodes the value of a text, of which nothing may be left over. -/
def Document.decode {α : Type} (decoder : Node → Decoded α) (document : Document) : Decoded α := do
  let result ← decoder document.root
  if document.complete then .ok result else .error .malformed

/-- Decodes a text. -/
def decodeText {α : Type} (decoder : Node → Decoded α) (text : String) : Decoded α :=
  (Document.read text.toList).decode decoder

/-- The value that a text stands for. -/
def Value.ofText (text : String) : Decoded Value := decodeText (Value.ofNode Node.maxDepth) text

end TrafficSchema.Json
