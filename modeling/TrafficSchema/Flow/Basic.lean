import TrafficSchema.Shape.Merge

/-!
# Flows

A flow is what is known of one endpoint: how it is called, and the shapes of its parameters, of
the request body and of the response. The pair of service and endpoint names the endpoint; two
flows with the same pair are observations of one thing (`Flow.merge`).

`Flow.capture` refers to the exchange a flow was decoded from. It is no part of the contract:
`Flow.contract` drops it, and it is never written to a file.

Flows that were observed one after the other are grouped by service and endpoint
(`FlowGroups.ofFlows`). They are sorted before that, by a key that different endpoints may share;
the sort is stable, so each group is in the order of observation. `FlowGroups.fold` widens every
group into a single flow.
-/

namespace TrafficSchema

/-- How a request body is encoded. -/
inductive ContentType
  | json
  | xml
  /-- There is no body, or it is neither of the two. -/
  | unknown
  deriving DecidableEq

instance : Inhabited ContentType := ⟨.unknown⟩

/-- The name of a content type. -/
def ContentType.name : ContentType → String
  | json => "json"
  | xml => "xml"
  | unknown => ""

/-- What is known of an endpoint. -/
structure Flow where
  service : String := ""
  endpoint : String := ""
  method : String := ""
  contentType : ContentType := .unknown
  queryParameters : ShapeTree := ∅
  contentStructure : ShapeTree := ∅
  /-- The scalar fields of the request body at any depth. -/
  contentParameters : ShapeTree := ∅
  responseStructure : ShapeTree := ∅
  responseGzipped : Bool := false
  capture : Option String := none
  deriving DecidableEq, Inhabited

namespace Flow

/-- The flow without its reference to an exchange. -/
def contract (f : Flow) : Flow := { f with capture := none }

/-- Whether two flows agree in all that is written to a file. -/
def contractEq (f g : Flow) : Bool := f.contract == g.contract

/-- Whether two flows name the same endpoint. -/
def sameEndpoint (f g : Flow) : Bool := f.service == g.service && f.endpoint == g.endpoint

/-- Flows are ordered by service and then by endpoint. -/
def cmp (f g : Flow) : Ordering :=
  (compare f.service g.service).then (compare f.endpoint g.endpoint)

/-- The name of the endpoint with its service. -/
def fullName (f : Flow) : String := f.service ++ "/" ++ f.endpoint

/-- The names of the service and of the endpoint with nothing between them. Flows are sorted by
it before they are grouped. -/
def sortKey (f : Flow) : String := f.service ++ f.endpoint

/-! ## Merging -/

/-- Merges names, of which the empty one says nothing: when widening the first one that says
something is kept, when overriding the second one is. -/
def mergeName (mode : MergeMode) (s t : String) : String :=
  match mode with
  | .widen => if s = "" then t else s
  | .override => if t = "" then s else t

/-- Merges content types like names. -/
def mergeContentType (mode : MergeMode) (s t : ContentType) : ContentType :=
  match mode with
  | .widen => if s = .unknown then t else s
  | .override => if t = .unknown then s else t

/-- Merges references to exchanges like names. -/
def mergeCapture (mode : MergeMode) (s t : Option String) : Option String :=
  match mode with
  | .widen => s.or t
  | .override => t.or s

/-- Merges two flows of one endpoint. -/
def merge (mode : MergeMode) (f g : Flow) : Flow where
  service := mergeName mode f.service g.service
  endpoint := mergeName mode f.endpoint g.endpoint
  method := mergeName mode f.method g.method
  contentType := mergeContentType mode f.contentType g.contentType
  queryParameters := f.queryParameters.merge mode g.queryParameters
  contentStructure := f.contentStructure.merge mode g.contentStructure
  contentParameters := f.contentParameters.merge mode g.contentParameters
  responseStructure := f.responseStructure.merge mode g.responseStructure
  responseGzipped :=
    match mode with
    | .widen => f.responseGzipped || g.responseGzipped
    | .override => g.responseGzipped
  capture := mergeCapture mode f.capture g.capture

end Flow

/-! ## Groups of flows -/

/-- The flows of endpoints by service and endpoint. -/
abbrev FlowGroups := Dict (Dict (List Flow))

/-- One flow for each endpoint, by service and endpoint. -/
abbrev Endpoints := Dict (Dict Flow)

namespace FlowGroups

/-- Adds a flow at the end of its group. -/
def add (groups : FlowGroups) (f : Flow) : FlowGroups :=
  groups.upsert f.service fun endpoints =>
    (endpoints.getD ∅).upsert f.endpoint fun flows => flows.getD [] ++ [f]

/-- Sorts flows by their sort keys. Flows with the same key stay in their order. -/
def sortFlows (flows : List Flow) : List Flow :=
  flows.mergeSort fun f g => f.sortKey ≤ g.sortKey

/-- Groups flows. -/
def ofFlows (flows : List Flow) : FlowGroups := (sortFlows flows).foldl add ∅

/-- The flow that a group stands for, if there is one in it. -/
def foldGroup? : List Flow → Option Flow
  | [] => none
  | f :: rest => some (rest.foldl (Flow.merge .widen) f)

/-- Folds every group. Groups without flows, and services without groups, are dropped. -/
def fold (groups : FlowGroups) : Endpoints :=
  groups.filterMap fun _ endpoints =>
    let flows := endpoints.filterMap fun _ group => foldGroup? group
    if flows.isEmpty then none else some flows

end FlowGroups

end TrafficSchema
