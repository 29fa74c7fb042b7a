import TrafficSchema.Config.Notation
import TrafficSchema.Error
import TrafficSchema.Toml.Reader

/-!
# Configuration files

A configuration file is a TOML document with the fields of a configuration as keys. Missing
fields have their defaults, other keys are ignored.
-/

namespace TrafficSchema

namespace Config

open Toml

/-- The text of a string. -/
def tomlText? : Toml.Value → Option String
  | .string s => some s
  | _ => none

/-- The texts of an array of strings. -/
def tomlTexts? : Toml.Value → Option (List String)
  | .array items => items.mapM tomlText?
  | _ => none

/-- The key under which a date or time is found where a table is expected. -/
def momentKey : String := "$__toml_private_datetime"

/-- The dictionary that a table stands for. A date or time counts as a table with a single
text. -/
def tomlDict? {α : Type} (decode? : Toml.Value → Option α) : Toml.Value → Option (Dict α)
  | .table _ members => do
    return Dict.ofList (← members.mapM fun (key, v) => do return (key, ← decode? v))
  | .moment text => do return Dict.ofList [(momentKey, ← decode? (.string text))]
  | _ => none

/-- Decodes the value of a key, if there is one. -/
def tomlField? {α : Type} (members : Members) (key : String) (initial : α)
    (decode? : Toml.Value → Option α) : Option α :=
  match members.get? key with
  | none => some initial
  | some value => decode? value

/-- The configuration that a document describes. -/
def ofMembers? (members : Members) : Option Config := do
  let initial : Config := {}
  return {
    blockedServices := ← tomlField? members "blocked_services" initial.blockedServices fun v =>
      (tomlTexts? v).map NameSet.ofNames
    blockedBeginnings :=
      ← tomlField? members "blocked_endpoint_prefixes" initial.blockedBeginnings tomlTexts?
    cacheable := ← tomlField? members "cacheable_endpoints" initial.cacheable
      (tomlDict? (tomlDict? tomlText?))
    decodeCompressed :=
      ← tomlField? members "decode_compressed_responses" initial.decodeCompressed fun
        | .bool b => some b
        | _ => none
    maxDepth := ← tomlField? members "max_depth" initial.maxDepth fun
      | .integer n => if 0 ≤ n then some n.toNat else none
      | _ => none }

/-- Reads a configuration file. -/
def ofToml (text : String) : Except SchemaError Config :=
  match Toml.read? text >>= ofMembers? with
  | some c => .ok c
  | none => .error .invalidConfig

end Config

end TrafficSchema
