import TrafficSchema.Config.Basic
import TrafficSchema.Encoding.Base64
import TrafficSchema.Encoding.Deflate
import TrafficSchema.Exchange.Query
import TrafficSchema.Flow.Basic
import TrafficSchema.Json.Node
import TrafficSchema.Shape.Infer
import TrafficSchema.Xml.Shape

/-!
# Decoding exchanges

An exchange is a captured request with its response. `Exchange.decode` turns it into a flow.

* The path has to name a service and an endpoint.
* The request body is XML or a structured JSON value, whichever fits; which one is tried first
  depends on the content type that was sent. A body that is neither is no error.
* The response body is empty, or XML, or the base64 text of XML that is compressed in the zlib
  format. Anything else makes the exchange unusable (`ExchangeError`).
-/

namespace TrafficSchema

/-- A captured request and its response. -/
structure Exchange where
  method : String
  /-- The path with the query. -/
  path : String
  requestBody : ByteArray := .empty
  responseBody : ByteArray := .empty
  requestContentType : Option String := none
  responseContentType : Option String := none
  /-- How the capture refers to this exchange. -/
  handle : String := ""

/-- Why a response body cannot be decoded. -/
inductive BodyFault
  | xml (fault : Xml.Fault)
  /-- It is neither XML nor text at all. -/
  | notText
  | notBase64
  | notZlib
  deriving DecidableEq

/-- Why an exchange cannot be decoded. -/
inductive ExchangeError
  | malformedPath (path : String)
  | body (fault : BodyFault)
  deriving DecidableEq

/-! ## Messages -/

/-- What is said about a fault of an XML document, except about its depth. -/
def Xml.Fault.detail : Xml.Fault → String
  | .encoding => "XML is not UTF-8"
  | .malformed => "XML error"
  | .badAttribute tag => "bad attribute on '" ++ tag ++ "'"
  | .badAttributeValue tag => "bad attribute value on '" ++ tag ++ "'"
  | .textOutsideRoot => "text outside of the root element"
  | .secondRoot => "more than one root element"
  | .unclosed tag => "unclosed element '" ++ tag ++ "'"
  | .noRoot => "document has no root element"
  | .tooDeep _ _ => "too deep"

/-- What is said about a body that cannot be decoded. -/
def BodyFault.message : BodyFault → String
  | .xml (.tooDeep depth limit) =>
    "Maximum nesting depth exceeded: " ++ toString depth ++ " > " ++ toString limit
  | .xml fault => "Unparseable response body: " ++ fault.detail
  | .notText => "Unparseable response body: not XML, not UTF-8"
  | .notBase64 => "Unparseable response body: not XML, not base64"
  | .notZlib => "Unparseable response body: not zlib data"

/-- What is said about an exchange that cannot be decoded. -/
def ExchangeError.message : ExchangeError → String
  | .malformedPath path =>
    "Malformed path: expected /service/endpoint, found '" ++ path ++ "'"
  | .body fault => fault.message

namespace Exchange

/-! ## Bodies -/

/-- Whether a body is empty or holds nothing but ASCII white space. -/
def isBlankBody (body : ByteArray) : Bool :=
  body.toList.all fun b => b == 9 || b == 10 || b == 12 || b == 13 || b == 32

/-- Whether one text occurs within another. -/
def occursIn (needle : List Char) : List Char → Bool
  | [] => needle.isEmpty
  | c :: cs => needle.isPrefixOf (c :: cs) || occursIn needle cs

/-- Whether a content type announces JSON. -/
def announcesJson (contentType : Option String) : Bool :=
  match contentType with
  | none => false
  | some name => occursIn "json".toList (name.toList.map Char.toLower)

/-- The shape of a body that is a structured JSON value. -/
def jsonBody? (body : ByteArray) : Option ShapeTree := do
  let text ← String.fromUTF8? body
  match Json.Value.ofText text with
  | .ok value => (Shape.infer value).tree?
  | .error _ => none

/-- The shape of a body that is an XML document. -/
def xmlBody? (limit : Nat) (body : ByteArray) : Option ShapeTree :=
  (Xml.shapeOf limit body).toOption

/-- The encoding and the shape of the request body, if it has one. -/
def requestShape? (e : Exchange) (limit : Nat) : Option (ContentType × ShapeTree) :=
  if isBlankBody e.requestBody then none
  else
    let json := (jsonBody? e.requestBody).map (ContentType.json, ·)
    let xml := (xmlBody? limit e.requestBody).map (ContentType.xml, ·)
    if announcesJson e.requestContentType then json.or xml else xml.or json

/-- The bytes that a compressed body stands for. -/
def inflateBody (body : ByteArray) : Except BodyFault ByteArray :=
  match String.fromUTF8? body with
  | none => .error .notText
  | some text =>
    match Base64.decode? (Text.trim text.toList) with
    | none => .error .notBase64
    | some bytes =>
      match Zlib.decode? bytes with
      | none => .error .notZlib
      | some bytes => .ok ⟨bytes.toArray⟩

/-- The shape of a response body, and whether it was compressed. -/
def responseShape (config : Config) (body : ByteArray) : Except BodyFault (ShapeTree × Bool) :=
  if isBlankBody body then .ok (∅, false)
  else match Xml.shapeOf config.maxDepth body with
    | .ok shape => .ok (shape, false)
    | .error (.tooDeep depth limit) => .error (.xml (.tooDeep depth limit))
    | .error fault =>
      if config.decodeCompressed then
        match inflateBody body with
        | .error fault => .error fault
        | .ok bytes =>
          match Xml.shapeOf config.maxDepth bytes with
          | .ok shape => .ok (shape, true)
          | .error fault => .error (.xml fault)
      else .error (.xml fault)

/-! ## Exchanges -/

/-- The flow that an exchange shows. -/
def decode (config : Config) (e : Exchange) : Except ExchangeError Flow :=
  match Target.ofPath? e.path with
  | none => .error (.malformedPath e.path)
  | some target =>
    let content := e.requestShape? config.maxDepth
    let shape := (content.map (·.2)).getD ∅
    match responseShape config e.responseBody with
    | .error fault => .error (.body fault)
    | .ok (response, gzipped) => .ok {
        service := target.service
        endpoint := target.endpoint
        method := e.method
        contentType := (content.map (·.1)).getD .unknown
        queryParameters := (target.query.map Query.parse).getD ∅
        contentStructure := shape
        contentParameters := shape.leaves
        responseStructure := response
        responseGzipped := gzipped
        capture := some e.handle }

end Exchange

end TrafficSchema
