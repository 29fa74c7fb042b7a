import TrafficSchema.Error

/-!
# Entities

An entity is a type of thing that occurs in responses: a name and the shapes of its properties.
Entities of one name are observations of one thing and are merged; those of different names
cannot be (`Entity.merge`).

In the shape of a response an element stands for an entity if it has attributes, none of which
is called `version`; an element with a version is a mere wrapper. The properties of the entity
are its attributes and, for each of its children, a reference to the child's tag.

`extractEntities` collects the entities of a shape, merging those of one name, and leaves the
shape without the attributes of the entities (`Extraction`). It visits every field with a
structure at the outermost level, and below that every one but the attributes.
-/

namespace TrafficSchema

/-- A named type with its properties. -/
structure Entity where
  name : String
  properties : ShapeTree
  deriving DecidableEq, Inhabited

namespace Entity

/-- Merges two entities of the same name. -/
def merge (mode : MergeMode) (a b : Entity) : Except SchemaError Entity :=
  if a.name = b.name then .ok ⟨a.name, a.properties.merge mode b.properties⟩
  else .error (.identityConflict a.name b.name)

/-- Merges an entity into the one of the same name among others. -/
def recordIn (entities : Dict Entity) (e : Entity) : Except SchemaError (Dict Entity) := do
  let merged ← match entities.get? e.name with
    | none => .ok e
    | some old => old.merge .widen e
  return entities.insert merged.name merged

/-- Merges repeated discoveries of entities into one entity for each name. -/
def collect (entities : List Entity) : Except SchemaError (Dict Entity) :=
  entities.foldlM recordIn ∅

end Entity

/-! ## Entities in a response -/

/-- The attribute that marks a wrapper. -/
def versionAttribute : String := "version"

/-- What a shape is split into. -/
structure Extraction where
  /-- The shape without the attributes of its entities. -/
  residual : ShapeTree
  /-- The entities by their names. -/
  entities : Dict Entity
  deriving DecidableEq

/-- The attributes of an element that stands for an entity. -/
def ShapeTree.entityAttributes? (t : ShapeTree) : Option ShapeTree :=
  t.attributes?.filter fun attributes =>
    !attributes.isEmpty && !attributes.contains versionAttribute

/-- The properties of the entity that an element with the given attributes stands for. -/
def ShapeTree.entityProperties (t attributes : ShapeTree) : ShapeTree :=
  (t.keys.filter (· ≠ attributesKey)).foldl
    (fun properties child => properties.observe child (.scalar (.reference child))) attributes

/-- Where fields stand that are visited. -/
inductive Place
  /-- At the outermost level, where all fields are elements. -/
  | outermost
  /-- In an element that is no entity. -/
  | wrapper
  /-- In an element that stands for an entity. -/
  | entity
  deriving DecidableEq

/-- The place of the fields of an element. -/
def Place.inside (t : ShapeTree) : Place :=
  if t.entityAttributes?.isSome then .entity else .wrapper

namespace Fields

/-- The fields that are left over. -/
def residual : (fields : Fields) → fields.Sorted → Place → Fields
  | nil, _, _ => nil
  | leaf key tag rest, h, place => leaf key tag (rest.residual h.afterLeaf place)
  | node key children rest, h, place =>
    let rest := rest.residual h.afterNode place
    if key = attributesKey ∧ place = .entity then rest
    else if key = attributesKey ∧ place = .wrapper then node key children rest
    else node key (children.residual h.children (.inside ⟨children, h.children⟩)) rest

theorem keys_residual (fields : Fields) (h : fields.Sorted) (place : Place) :
    ∀ k ∈ (fields.residual h place).keys, k ∈ fields.keys := by
  induction fields with
  | nil => simp [residual]
  | leaf key tag rest ih =>
    simp only [residual, keys, List.mem_cons]
    rintro k (rfl | hk)
    · exact .inl rfl
    · exact .inr (ih h.afterLeaf k hk)
  | node key children rest _ ih =>
    simp only [residual]
    intro k hk
    have := ih h.afterNode k
    split at hk
    · simp_all [keys]
    · split at hk <;> (simp only [keys, List.mem_cons] at hk ⊢; grind)

theorem sorted_residual (fields : Fields) (h : fields.Sorted) (place : Place) :
    (fields.residual h place).Sorted := by
  induction fields generalizing place with
  | nil => trivial
  | leaf key tag rest ih =>
    exact ⟨fun k hk => h.1 k (keys_residual rest h.afterLeaf place k hk), ih h.afterLeaf place⟩
  | node key children rest ihc ih =>
    have hkeys := fun k hk => h.1 k (keys_residual rest h.afterNode place k hk)
    simp only [residual]
    split
    · exact ih h.afterNode place
    · split
      · exact ⟨hkeys, h.children, ih h.afterNode place⟩
      · exact ⟨hkeys, ihc h.children _, ih h.afterNode place⟩

/-- Adds an entity to those found before. -/
def recordEntity (entities : Dict Entity) (name : String) (properties : ShapeTree) : Dict Entity :=
  entities.upsert name fun
    | none => ⟨name, properties⟩
    | some e => { e with properties := e.properties.merge .widen properties }

/-- Adds the entities among fields, and below them, to those found before. -/
def collectEntities : (fields : Fields) → fields.Sorted → Place → Dict Entity → Dict Entity
  | nil, _, _, entities => entities
  | leaf _ _ rest, h, place, entities => rest.collectEntities h.afterLeaf place entities
  | node key children rest, h, place, entities =>
    let element : ShapeTree := ⟨children, h.children⟩
    let entities :=
      if key = attributesKey ∧ place ≠ .outermost then entities
      else
        let entities := match element.entityAttributes? with
          | none => entities
          | some attributes => recordEntity entities key (element.entityProperties attributes)
        children.collectEntities h.children (.inside element) entities
    rest.collectEntities h.afterNode place entities

end Fields

/-- Splits the shape of a response into its entities and the rest. -/
def extractEntities (t : ShapeTree) : Extraction where
  residual :=
    ⟨t.fields.residual t.sorted .outermost, t.fields.sorted_residual t.sorted .outermost⟩
  entities := t.fields.collectEntities t.sorted .outermost ∅

end TrafficSchema
