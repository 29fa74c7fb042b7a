/-!
# Request targets

A request is addressed to an endpoint of a service by a path `/service/endpoint`, which a
question mark and a query may follow. Both names are non-empty and free of slashes; the query is
arbitrary.
-/

namespace TrafficSchema

/-- What a request path addresses. -/
structure Target where
  service : String
  endpoint : String
  /-- What follows the first question mark, if there is one. -/
  query : Option String
  deriving DecidableEq

namespace Target

/-- Cuts a text at the first occurrence of a character. -/
def cutAt (c : Char) (cs : List Char) : List Char × Option (List Char) :=
  match cs.dropWhile (· != c) with
  | [] => (cs, none)
  | _ :: rest => (cs.takeWhile (· != c), some rest)

/-- The target of a path. -/
def ofPath? (path : String) : Option Target :=
  let (names, query) := cutAt '?' path.toList
  match names with
  | '/' :: rest =>
    match cutAt '/' rest with
    | (service, some endpoint) =>
      if service = [] ∨ endpoint = [] ∨ '/' ∈ endpoint then none
      else some ⟨String.ofList service, String.ofList endpoint, query.map String.ofList⟩
    | _ => none
  | _ => none

end Target

end TrafficSchema
