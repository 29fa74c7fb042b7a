import TrafficSchema.Config.Basic
import TrafficSchema.Json.Printer
import TrafficSchema.Json.Record

/-!
# Configurations as JSON

A configuration is an object with five fields, all of which may be missing.
-/

namespace TrafficSchema

open Json

namespace CacheableEndpoints

/-- The map of cacheable endpoints as a JSON value. -/
def toJson (c : CacheableEndpoints) : Value :=
  .object (c.entries.map fun (service, endpoints) =>
    (service, .object (endpoints.entries.map fun (endpoint, property) =>
      (endpoint, .string property))))

/-- The map of cacheable endpoints that a JSON value stands for. -/
def ofNode (depth : Nat) (node : Node) : Decoded CacheableEndpoints :=
  node.toDict (fun depth node => node.toDict (fun _ => Node.toText) depth) depth

/-- Reads a map of cacheable endpoints. -/
def ofText (text : String) : Decoded CacheableEndpoints := decodeText (ofNode Node.maxDepth) text

end CacheableEndpoints

namespace Config

/-- The greatest limit that a configuration can give. -/
def greatestDepth : Nat := Nat.pow 2 64 - 1

/-- The limit that a number stands for. -/
def depthOfNode : Node → Decoded Nat
  | .number (some (.integer n)) =>
    if 0 ≤ n ∧ n.toNat ≤ greatestDepth then .ok n.toNat else .error .malformed
  | _ => .error .malformed

/-- A configuration as a JSON value. -/
def toJson (c : Config) : Value :=
  .object
    [("blocked_services", .array (c.blockedServices.keys.map .string)),
      ("blocked_endpoint_prefixes", .array (c.blockedBeginnings.map .string)),
      ("cacheable_endpoints", c.cacheable.toJson),
      ("decode_compressed_responses", .bool c.decodeCompressed),
      ("max_depth", .number (.integer c.maxDepth))]

/-- The fields of a configuration in the order in which an array gives them. -/
def jsonFields : List (RecordField Config) :=
  [⟨"blocked_services", fun depth node c => do
      let names ← node.toList (fun _ => Node.toText) depth
      return { c with blockedServices := NameSet.ofNames names }⟩,
    ⟨"blocked_endpoint_prefixes", fun depth node c => do
      return { c with blockedBeginnings := ← node.toList (fun _ => Node.toText) depth }⟩,
    ⟨"cacheable_endpoints", fun depth node c => do
      return { c with cacheable := ← CacheableEndpoints.ofNode depth node }⟩,
    ⟨"decode_compressed_responses", fun _ node c => do
      return { c with decodeCompressed := ← node.toBool }⟩,
    ⟨"max_depth", fun _ node c => do
      return { c with maxDepth := ← depthOfNode node }⟩]

/-- The configuration that a JSON value stands for. -/
def ofNode (depth : Nat) (node : Node) : Decoded Config := node.toRecord jsonFields {} depth

/-- Reads a configuration in JSON. -/
def ofText (text : String) : Decoded Config := decodeText (ofNode Node.maxDepth) text

end Config

end TrafficSchema
