import TrafficSchema.Dict

/-!
# Configuration

What is captured and how: services and endpoints that are left out, endpoints whose responses
clients may keep, and the limits of decoding.
-/

namespace TrafficSchema

/-- For each service the endpoints that clients may cache, by their names without a version, and
the property that holds the version of the data. -/
abbrev CacheableEndpoints := Dict (Dict String)

/-- A configuration. -/
structure Config where
  /-- Services whose flows are left out. -/
  blockedServices : NameSet := ∅
  /-- How the names of endpoints start whose flows are left out. -/
  blockedBeginnings : List String := []
  cacheable : CacheableEndpoints := ∅
  /-- Whether a response that is no XML is taken as compressed. -/
  decodeCompressed : Bool := true
  /-- How deeply the elements of a body may be nested. -/
  maxDepth : Nat := 64
  deriving DecidableEq, Inhabited

namespace Config

/-- Whether flows of an endpoint are left out. -/
def isBlocked (config : Config) (service endpoint : String) : Bool :=
  config.blockedServices.contains service ||
    config.blockedBeginnings.any fun start => start.toList.isPrefixOf endpoint.toList

/-- Leaves out the flows of a service. -/
def blockService (config : Config) (service : String) : Config :=
  { config with blockedServices := NameSet.add config.blockedServices service }

/-- Leaves out the flows of all endpoints whose names start in a certain way. -/
def blockBeginning (config : Config) (start : String) : Config :=
  { config with blockedBeginnings := config.blockedBeginnings ++ [start] }

/-- Lets clients cache an endpoint. -/
def addCacheable (config : Config) (service endpoint property : String) : Config :=
  { config with
    cacheable := config.cacheable.upsert service fun endpoints =>
      (endpoints.getD ∅).insert endpoint property }

end Config

end TrafficSchema
