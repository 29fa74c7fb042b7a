import TrafficSchema.Dict
import TrafficSchema.Json.Node

/-!
# Decoding dictionaries and records

`Node.toDict` decodes an object whose keys are data: any key may occur, and of several members
with one key the last counts. `Node.toRecord` decodes an object whose keys are fixed fields. A
field may be missing, which leaves its default, but not occur twice; members that are no fields
are passed over. A record may also be written as an array of its fields in their order, of which
those at the end may be missing.
-/

namespace TrafficSchema.Json

/-- A field of a record of type `σ`: its name, and how its value changes the record. -/
structure RecordField (σ : Type) where
  name : String
  decode : Nat → Node → σ → Decoded σ

namespace Node

variable {α σ : Type}

/-- Decodes a value for which `null` may stand, with the meaning of the default. -/
def orDefault [Inhabited α] (decoder : Node → Decoded α) : Node → Decoded α
  | null => .ok default
  | node => decoder node

/-- Decodes the members of a dictionary into what was decoded before. -/
def membersToDict (decoder : Node → Decoded α) : List Member → Dict α → Decoded (Dict α)
  | [], d => .ok d
  | (none, _) :: _, _ => .error .malformed
  | (some key, value) :: rest, d => do
    let a ← decoder value
    membersToDict decoder rest (d.insert key a)

/-- Decodes an object with arbitrary keys. -/
def toDict (decoder : Nat → Node → Decoded α) : Nat → Node → Decoded (Dict α)
  | depth + 1, object members => membersToDict (decoder depth) members ∅
  | _, _ => .error .malformed

/-- Decodes an array. -/
def toList (decoder : Nat → Node → Decoded α) : Nat → Node → Decoded (List α)
  | depth + 1, array items => items.mapM (decoder depth)
  | _, _ => .error .malformed

/-- Decodes the members of a record, given the names of the fields that occurred before. -/
def membersToRecord (fields : List (RecordField σ)) (depth : Nat) :
    List Member → List String → σ → Decoded σ
  | [], _, record => .ok record
  | (none, _) :: _, _, _ => .error .malformed
  | (some key, value) :: rest, seen, record =>
    match fields.find? (·.name == key) with
    | none => do
      value.skip
      membersToRecord fields depth rest seen record
    | some field => do
      if seen.contains key then .error .malformed
      let record ← field.decode depth value record
      membersToRecord fields depth rest (key :: seen) record

/-- Decodes the fields of a record from the items of an array. -/
def itemsToRecord (depth : Nat) : List (RecordField σ) → List Node → σ → Decoded σ
  | _, [], record => .ok record
  | [], _ :: _, _ => .error .malformed
  | field :: fields, item :: items, record => do
    itemsToRecord depth fields items (← field.decode depth item record)

/-- Decodes an object with fixed fields, starting from their defaults. -/
def toRecord (fields : List (RecordField σ)) (initial : σ) : Nat → Node → Decoded σ
  | depth + 1, object members => membersToRecord fields depth members [] initial
  | depth + 1, array items => itemsToRecord depth fields items initial
  | _, _ => .error .malformed

end Node

end TrafficSchema.Json
