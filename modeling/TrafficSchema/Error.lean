import TrafficSchema.Exchange.Decode
import TrafficSchema.Shape.Notation

/-!
# Errors

What can go wrong when schemas are inferred, merged, read and written, and what is said about
it.
-/

namespace TrafficSchema

/-- Why an operation on schemas, or on the files that hold them, fails. -/
inductive SchemaError
  /-- An exchange cannot be decoded. -/
  | malformedExchange (e : ExchangeError)
  /-- Two entities with different names are to be merged. -/
  | identityConflict (left right : String)
  | missingFile (name : String)
  | invalidSchema (e : Json.DecodeError)
  | invalidConfig
  /-- A file cannot be read or written. -/
  | file
  deriving DecidableEq

/-- What is said about an error. -/
def SchemaError.message : SchemaError → String
  | malformedExchange e => "Malformed exchange: " ++ e.message
  | identityConflict left right =>
    "Cannot merge entity '" ++ right ++ "' into entity '" ++ left ++ "'"
  | missingFile name => "Input file not found: " ++ name
  | invalidSchema e =>
    match e.phrase? with
    | none => "Invalid schema JSON"
    | some phrase => "Invalid schema JSON: " ++ phrase
  | invalidConfig => "Invalid configuration"
  | file => "IO error"

end TrafficSchema
