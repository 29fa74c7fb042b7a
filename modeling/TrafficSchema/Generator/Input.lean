import TrafficSchema.Config.Basic
import TrafficSchema.Generator.Naming
import TrafficSchema.Generator.ReturnType
import TrafficSchema.Schema.Basic

/-!
# The input of the code generator

A code generator that writes a client for an interface only renders. All it needs is derived
here from a schema (`GeneratorInput.ofSchema`): identifiers, versions, return types, and the
relations between entities.
-/

namespace TrafficSchema

/-- A parameter of an endpoint. -/
structure ParameterData where
  name : String
  identifier : String
  typeName : String
  deriving DecidableEq

/-- An endpoint. -/
structure EndpointData where
  name : String
  identifier : String
  unversionedName : String
  unversionedIdentifier : String
  version : Nat
  method : String
  contentType : ContentType
  contentStructure : ShapeTree
  responseGzipped : Bool
  parameters : List ParameterData
  returnType : ReturnType
  /-- The property with the version of the data, if clients may cache the response. -/
  dataVersionProperty : Option String
  deriving DecidableEq

/-- A service. -/
structure ServiceData where
  name : String
  identifier : String
  /-- Whether clients may cache responses of the service. -/
  isCacheable : Bool
  /-- The latest version of every endpoint. -/
  endpoints : List EndpointData
  /-- All versions of every endpoint. -/
  rawEndpoints : List EndpointData
  /-- The entities that some endpoint returns, each once and in order. -/
  entityTypes : List String
  deriving DecidableEq

/-- A property of an entity. -/
structure PropertyData where
  name : String
  identifier : String
  /-- The builtin type, or the entity that is referred to. -/
  typeName : String
  isBuiltin : Bool
  isCollection : Bool
  deriving DecidableEq

/-- An entity. -/
structure EntityData where
  name : String
  identifier : String
  /-- The identifier of the property that identifies an entity, if there is one. -/
  idProperty : Option String
  properties : List PropertyData
  deriving DecidableEq

/-- All that a code generator needs. -/
structure GeneratorInput where
  services : List ServiceData
  entities : List EntityData
  deriving DecidableEq

namespace GeneratorInput

open Naming

/-! ## Types -/

/-- The name of the type of a scalar. What never had a value is taken for text. -/
def typeName (tag : Tag) : String := if tag = .none then "str" else tag.name

/-- A text without an `s` at its end, if it has one. -/
def singular? (name : String) : Option String :=
  match name.toList.reverse with
  | 's' :: rest => some (String.ofList rest.reverse)
  | _ => none

/-- The entity that a reference means, and whether it means many: a name in the plural means
many of the entity with the name in the singular. -/
def referencedEntity? (tag : String) (names : NameSet) : Option (String × Bool) :=
  let collection := (singular? tag).filter names.contains
  match collection with
  | some name => some (name, true)
  | none => if names.contains tag then some (tag, false) else none

/-! ## Services -/

/-- The parameters among the fields of a tree: all scalar fields with a name. -/
def parameters (t : ShapeTree) : List ParameterData :=
  t.entries.filterMap fun (name, shape) =>
    match shape with
    | .tree _ => none
    | .scalar tag =>
      if name = "" then none else some ⟨name, parameterIdentifier name, typeName tag⟩

/-- What the generator needs to know of an endpoint. -/
def endpointData (names : NameSet) (cacheable : Option (Dict String)) (name : String) (f : Flow) :
    EndpointData :=
  let (unversioned, version) := endpointVersion name
  { name
    identifier := snakeCase name
    unversionedName := unversioned
    unversionedIdentifier := snakeCase unversioned
    version
    method := f.method
    contentType := f.contentType
    contentStructure := f.contentStructure
    responseGzipped := f.responseGzipped
    parameters :=
      parameters (if f.queryParameters.isEmpty then f.contentParameters else f.queryParameters)
    returnType := resolveReturnType f.responseStructure names
    dataVersionProperty := cacheable.bind (·.get? unversioned) }

/-- The greatest version for each unversioned identifier. -/
def latestVersions (endpoints : List EndpointData) : Dict Nat :=
  endpoints.foldl (fun versions e =>
    versions.upsert e.unversionedIdentifier fun
      | none => e.version
      | some version => max version e.version) ∅

/-- The endpoints that have the latest version. -/
def latest (endpoints : List EndpointData) : List EndpointData :=
  let versions := latestVersions endpoints
  endpoints.filter fun e => versions.get? e.unversionedIdentifier = some e.version

/-- What the generator needs to know of a service. -/
def serviceData (names : NameSet) (cacheable : Option (Dict String)) (service : String)
    (flows : Dict Flow) : ServiceData :=
  let rawEndpoints := flows.entries.map fun (name, f) => endpointData names cacheable name f
  { name := service
    identifier := snakeCase service
    isCacheable := cacheable.any (!·.isEmpty)
    endpoints := latest rawEndpoints
    rawEndpoints
    entityTypes :=
      (NameSet.ofNames (rawEndpoints.flatMap fun e =>
        e.returnType.entities.map (·.entityName))).keys }

/-! ## Entities -/

/-- What the generator needs to know of a property, unless it is structured or refers to
nothing. -/
def propertyData? (names : NameSet) (name : String) : Shape → Option PropertyData
  | .tree _ => none
  | .scalar (.reference tag) => do
    let (target, isCollection) ← referencedEntity? tag names
    return ⟨name, propertyIdentifier name, target, false, isCollection⟩
  | .scalar tag => some ⟨name, propertyIdentifier name, typeName tag, true, false⟩

/-- The property that identifies an entity: the one named like the entity and `Id`, or else
`Id`. -/
def idProperty? (entity : String) (properties : List PropertyData) : Option PropertyData :=
  (properties.find? (·.name == entity ++ "Id")).or (properties.find? (·.name == "Id"))

/-- What the generator needs to know of an entity. -/
def entityData (names : NameSet) (e : Entity) : EntityData :=
  let properties := e.properties.entries.filterMap fun (name, shape) =>
    propertyData? names name shape
  { name := e.name
    identifier := snakeCase e.name
    idProperty := (idProperty? e.name properties).map fun p => propertyIdentifier p.name
    properties }

/-! ## Schemas -/

/-- All that a code generator needs to know of an interface. -/
def ofSchema (s : Schema) (cacheable : CacheableEndpoints) : GeneratorInput :=
  let names := s.entityNames
  { services := s.endpoints.entries.map fun (service, flows) =>
      serviceData names (cacheable.get? service) service flows
    entities := s.entities.values.map (entityData names) }

end GeneratorInput

end TrafficSchema
