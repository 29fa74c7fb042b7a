import TrafficSchema.Flow.Notation
import TrafficSchema.Generator.Input

/-!
# The input of the code generator as JSON

Each part is an object; names of types are written under `type`.
-/

namespace TrafficSchema

open Json

/-- A text that may be missing, as a JSON value. -/
def optionalText : Option String → Value
  | none => .null
  | some s => .string s

/-- A returned entity as a JSON value. -/
def EntityReturn.toJson (r : EntityReturn) : Value :=
  .object
    [("entity_name", .string r.entityName),
      ("container_tag", .string r.containerTag),
      ("is_collection", .bool r.isCollection)]

/-- A return type as a JSON value. -/
def ReturnType.toJson (r : ReturnType) : Value :=
  .object
    [("parent_tag", optionalText r.parentTag),
      ("entities", .array (r.entities.map EntityReturn.toJson))]

/-- A parameter as a JSON value. -/
def ParameterData.toJson (p : ParameterData) : Value :=
  .object
    [("name", .string p.name),
      ("name_snake_case", .string p.identifier),
      ("type", .string p.typeName)]

/-- An endpoint as a JSON value. -/
def EndpointData.toJson (e : EndpointData) : Value :=
  .object
    [("name", .string e.name),
      ("name_snake_case", .string e.identifier),
      ("name_without_version", .string e.unversionedName),
      ("name_snake_case_without_version", .string e.unversionedIdentifier),
      ("version", .number (.integer e.version)),
      ("method", .string e.method),
      ("content_type", e.contentType.toJson),
      ("content_structure", e.contentStructure.toJson),
      ("response_gzipped", .bool e.responseGzipped),
      ("parameters", .array (e.parameters.map ParameterData.toJson)),
      ("return_type", e.returnType.toJson),
      ("data_version_property_name", optionalText e.dataVersionProperty)]

/-- A service as a JSON value. -/
def ServiceData.toJson (s : ServiceData) : Value :=
  .object
    [("name", .string s.name),
      ("name_snake_case", .string s.identifier),
      ("is_cacheable", .bool s.isCacheable),
      ("endpoints", .array (s.endpoints.map EndpointData.toJson)),
      ("raw_endpoints", .array (s.rawEndpoints.map EndpointData.toJson)),
      ("entity_types", .array (s.entityTypes.map .string))]

/-- A property as a JSON value. -/
def PropertyData.toJson (p : PropertyData) : Value :=
  .object
    [("name", .string p.name),
      ("name_snake_case", .string p.identifier),
      ("type", .string p.typeName),
      ("is_builtin", .bool p.isBuiltin),
      ("is_collection", .bool p.isCollection)]

/-- An entity as a JSON value. -/
def EntityData.toJson (e : EntityData) : Value :=
  .object
    [("name", .string e.name),
      ("name_snake_case", .string e.identifier),
      ("id_property_name", optionalText e.idProperty),
      ("properties", .array (e.properties.map PropertyData.toJson))]

/-- The input of a code generator as a JSON value. -/
def GeneratorInput.toJson (g : GeneratorInput) : Value :=
  .object
    [("services", .array (g.services.map ServiceData.toJson)),
      ("entities", .array (g.entities.map EntityData.toJson))]

end TrafficSchema
