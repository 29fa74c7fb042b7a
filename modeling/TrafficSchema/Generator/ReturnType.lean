import TrafficSchema.Shape.Basic

/-!
# Return types

What an endpoint returns is found by searching the shape of its response for tags that name
entities. Below a tag that names an entity the search does not go on. A found entity is a
collection if the element it sits in has its name in the plural.

`resolveReturnType` lists the entities, and gives the tag of the element that all of them sit
in.
-/

namespace TrafficSchema

/-- An entity that an endpoint returns. -/
structure EntityReturn where
  entityName : String
  /-- The tag of the element that the entity sits in. -/
  containerTag : String
  isCollection : Bool
  deriving DecidableEq

/-- The entities that an endpoint returns. -/
structure ReturnType where
  /-- The tag of the element that all entities sit in, unless they meet only at the root. -/
  parentTag : Option String := none
  entities : List EntityReturn := []
  deriving DecidableEq, Inhabited

namespace ReturnType

/-- Whether a name is another one in the plural. -/
def isPlural (name singular : String) : Bool := name == singular ++ "s"

/-- The return of an entity in an element. -/
def entityIn (container entity : String) : EntityReturn :=
  ⟨entity, container, isPlural container entity⟩

/-- Whether entities were found, and in an element with a tag. -/
def isUsable (r : ReturnType) : Bool := r.parentTag.isSome && !r.entities.isEmpty

/-- The entities among the keys of an element, as one result under its tag. -/
def own (names : NameSet) (tag : String) (keys : List String) : List ReturnType :=
  match (keys.filter names.contains).map (entityIn tag) with
  | [] => []
  | found => [⟨some tag, found⟩]

/-- What is returned by the element `parent` in which results meet. A single result is passed
on. -/
def join (parent : Option String) : List ReturnType → ReturnType
  | [] => {}
  | [result] => result
  | results => ⟨parent, results.flatMap (·.entities)⟩

/-- What is returned by the element `parent`, from its keys and from what was found below it.
The root has no tag, and its own keys are not looked at. -/
def assemble (names : NameSet) (parent : Option String) (keys : List String)
    (below : List ReturnType) : ReturnType :=
  match parent with
  | none => join none below
  | some tag => join parent (own names tag keys ++ below)

end ReturnType

/-- What is found below the fields that have a structure and do not name an entity. -/
def Fields.returnTypes (names : NameSet) : Fields → List ReturnType
  | nil => []
  | leaf _ _ rest => rest.returnTypes names
  | node key children rest =>
    if names.contains key then rest.returnTypes names
    else
      let result := ReturnType.assemble names (some key) children.keys (children.returnTypes names)
      if result.isUsable then result :: rest.returnTypes names else rest.returnTypes names

/-- What a response with the given shape returns, if these are the names of entities. -/
def resolveReturnType (response : ShapeTree) (names : NameSet) : ReturnType :=
  ReturnType.assemble names none response.fields.keys (response.fields.returnTypes names)

end TrafficSchema
