import Mathlib.Logic.Basic
import TrafficSchema.Entity
import TrafficSchema.Proofs.Dict

/-!
# What an extraction leaves over

Extracting the entities of a response visits its elements from the outermost level inwards. What
is found is listed by `Fields.discoveries`, and what is left over at each key is told by
`ShapeTree.get?_residualAt`.

An element is free of entities (`ShapeTree.EntityFree`) if its attributes are missing, or empty,
or have a version, and its children are free of entities. A tree whose elements are all free is a
residual (`ShapeTree.Residual`). What an extraction leaves over is one
(`ShapeTree.residual_extractEntities`), and nothing is extracted from a residual
(`ShapeTree.Residual.extractEntities_eq`). Merging residuals gives a residual in either mode
(`ShapeTree.Residual.merge`): an attribute of one side is an attribute of the result unless all
attributes are replaced by a scalar, so no version is lost.
-/

namespace TrafficSchema

/-- Whether a field is passed over, being the attributes of the element around it. -/
abbrev Place.skips (place : Place) (key : String) : Prop :=
  key = attributesKey ∧ place ≠ .outermost

/-! ## What is found -/

namespace Fields

/-- The entities among fields and below them, each with its name and its properties. -/
def discoveries : (fields : Fields) → fields.Sorted → Place → List (String × ShapeTree)
  | nil, _, _ => []
  | leaf _ _ rest, h, place => rest.discoveries h.afterLeaf place
  | node key children rest, h, place =>
    let element : ShapeTree := ⟨children, h.children⟩
    let found :=
      if place.skips key then []
      else
        (element.entityAttributes?.map fun attributes =>
          (key, element.entityProperties attributes)).toList ++
            children.discoveries h.children (.inside element)
    found ++ rest.discoveries h.afterNode place

/-- Entities are recorded as they are discovered. -/
theorem collectEntities_eq_foldl (fields : Fields) (h : fields.Sorted) (place : Place)
    (entities : Dict Entity) :
    fields.collectEntities h place entities =
      (fields.discoveries h place).foldl (fun entities d => recordEntity entities d.1 d.2)
        entities := by
  induction fields generalizing place entities with
  | nil => rfl
  | leaf key tag rest ih => exact ih h.afterLeaf place entities
  | node key children rest ihc ih =>
    simp only [collectEntities, discoveries, List.foldl_append, ih h.afterNode]
    congr 1
    by_cases hskips : place.skips key
    · rw [if_pos hskips, if_pos hskips]
      rfl
    · rw [if_neg hskips, if_neg hskips, List.foldl_append, ihc h.children]
      cases ShapeTree.entityAttributes? ⟨children, h.children⟩ <;> rfl

end Fields

namespace ShapeTree

/-- The entities in a tree whose fields stand at the given place. -/
def discoveries (t : ShapeTree) (place : Place) : List (String × ShapeTree) :=
  t.fields.discoveries t.sorted place

/-- What is discovered is an element of the tree, or was discovered in one. -/
theorem mem_discoveries_iff {t : ShapeTree} {place : Place} {d : String × ShapeTree} :
    d ∈ t.discoveries place ↔ ∃ key c, t.get? key = some (.tree c) ∧ ¬ place.skips key ∧
      ((∃ attributes, c.entityAttributes? = some attributes ∧
          d = (key, c.entityProperties attributes)) ∨ d ∈ c.discoveries (.inside c)) := by
  obtain ⟨fields, h⟩ := t
  simp only [← mem_entries_iff]
  change d ∈ fields.discoveries h place ↔ ∃ key c, (key, .tree c) ∈ fields.entries h ∧ _
  induction fields with
  | nil => simp [Fields.discoveries, Fields.entries]
  | leaf key tag rest ih => simp [Fields.discoveries, Fields.entries, ih h.afterLeaf]
  | node key children rest _ ih =>
    simp only [Fields.discoveries, Fields.entries, List.mem_append, ih h.afterNode, List.mem_cons,
      or_and_right, exists_or]
    refine or_congr_left ?_
    by_cases hskips : place.skips key
    · rw [if_pos hskips]
      constructor
      · intro hd
        cases hd
      · rintro ⟨key, c, heq, hvisited, -⟩
        cases heq
        exact absurd hskips hvisited
    · rw [if_neg hskips, List.mem_append, Option.mem_toList, Option.map_eq_some_iff]
      constructor
      · rintro (⟨attributes, hattributes, rfl⟩ | hd)
        · exact ⟨key, _, rfl, hskips, .inl ⟨attributes, hattributes, rfl⟩⟩
        · exact ⟨key, _, rfl, hskips, .inr hd⟩
      · rintro ⟨key, c, heq, -, ⟨attributes, hattributes, rfl⟩ | hd⟩
        · cases heq
          exact .inl ⟨attributes, hattributes, rfl⟩
        · cases heq
          exact .inr hd

/-- There is nothing to discover in a tree if no element visited in it is an entity, and there is
nothing to discover in these elements. -/
theorem discoveries_eq_nil_of {place : Place} {t : ShapeTree}
    (h : ∀ key c, t.get? key = some (.tree c) → ¬ place.skips key →
      c.entityAttributes? = none ∧ c.discoveries (.inside c) = []) : t.discoveries place = [] := by
  refine List.eq_nil_iff_forall_not_mem.2 fun d hd => ?_
  obtain ⟨key, c, hc, hvisited, hd⟩ := mem_discoveries_iff.1 hd
  obtain ⟨hself, hchildren⟩ := h key c hc hvisited
  obtain ⟨attributes, hattributes, -⟩ | hd := hd
  · rw [hself] at hattributes
    cases hattributes
  · rw [hchildren] at hd
    cases hd

end ShapeTree

/-! ## What is left over -/

namespace ShapeTree

/-- What is left over of a tree whose fields stand at the given place. -/
def residualAt (place : Place) (t : ShapeTree) : ShapeTree :=
  ⟨t.fields.residual t.sorted place, t.fields.sorted_residual t.sorted place⟩

end ShapeTree

/-- What is left over of the field `key` at the given place. -/
def Shape.residualAt (place : Place) (key : String) : Shape → Option Shape
  | scalar tag => some (scalar tag)
  | tree c =>
    if place.skips key then
      if place = .entity then none else some (tree c)
    else some (tree (c.residualAt (.inside c)))

/-- The fields that are left over, one by one. -/
theorem Fields.residual_eq_ofEntries (fields : Fields) (h : fields.Sorted) (place : Place) :
    fields.residual h place = ofEntries ((fields.entries h).filterMap fun e =>
      (Shape.residualAt place e.1 e.2).map fun shape => (e.1, shape)) := by
  induction fields with
  | nil => rfl
  | leaf key tag rest ih =>
    rw [residual, ih h.afterLeaf]
    rfl
  | node key children rest _ ih =>
    rw [residual, ih h.afterNode, entries, List.filterMap_cons, Shape.residualAt]
    by_cases hkey : key = attributesKey
    · cases place <;> simp [hkey] <;> rfl
    · have hskips : ¬ place.skips key := fun h => hkey h.1
      rw [if_neg hskips, if_neg fun h => hkey h.1, if_neg fun h => hkey h.1]
      rfl

namespace ShapeTree

theorem residualAt_eq_ofDict (place : Place) (t : ShapeTree) :
    t.residualAt place = ofDict (t.dict.filterMap (Shape.residualAt place)) := by
  obtain ⟨fields, h⟩ := t
  simp only [residualAt, fields.residual_eq_ofEntries h place]
  rfl

/-- **What is left over of each field.** -/
theorem get?_residualAt (place : Place) (t : ShapeTree) (key : String) :
    (t.residualAt place).get? key = (t.get? key).bind (Shape.residualAt place key) := by
  rw [residualAt_eq_ofDict, get?, dict_ofDict, Dict.get?_filterMap]
  rfl

/-- Of an element that is visited an element is left over. -/
theorem get?_residualAt_of_tree {place : Place} {t c : ShapeTree} {key : String}
    (hvisited : ¬ place.skips key) (hc : t.get? key = some (.tree c)) :
    (t.residualAt place).get? key = some (.tree (c.residualAt (.inside c))) := by
  rw [get?_residualAt, hc, Option.bind_some, Shape.residualAt, if_neg hvisited]

/-- An element that is left over was left over of an element, unless it is the attributes of an
element that is no entity. -/
theorem of_get?_residualAt_eq_tree {place : Place} {t c : ShapeTree} {key : String}
    (h : (t.residualAt place).get? key = some (.tree c)) :
    (place.skips key ∧ place ≠ .entity ∧ t.get? key = some (.tree c)) ∨
      (¬ place.skips key ∧ ∃ d, t.get? key = some (.tree d) ∧ c = d.residualAt (.inside d)) := by
  rw [get?_residualAt, Option.bind_eq_some_iff] at h
  obtain ⟨a, ha, h⟩ := h
  cases a with
  | scalar tag => cases h
  | tree d =>
    rw [Shape.residualAt] at h
    split at h
    · rename_i hskips
      split at h
      · cases h
      · rename_i hplace
        cases h
        exact .inl ⟨hskips, hplace, ha⟩
    · rename_i hskips
      cases h
      exact .inr ⟨hskips, d, ha, rfl⟩

/-- Nothing is taken out of a tree if nothing is taken out of the elements visited in it. -/
theorem residualAt_eq_self {place : Place} {t : ShapeTree} (hplace : place ≠ .entity)
    (h : ∀ key c, t.get? key = some (.tree c) → ¬ place.skips key →
      c.residualAt (.inside c) = c) : t.residualAt place = t := by
  ext key : 1
  rw [get?_residualAt]
  cases ha : t.get? key with
  | none => rfl
  | some a =>
    cases a with
    | scalar tag => rfl
    | tree c =>
      rw [Option.bind_some, Shape.residualAt]
      by_cases hskips : place.skips key
      · rw [if_pos hskips, if_neg hplace]
      · rw [if_neg hskips, h key c ha hskips]

end ShapeTree

/-! ## Trees without entities -/

namespace ShapeTree

/-- No element stands for an entity, neither the given one nor any in it. -/
inductive EntityFree : ShapeTree → Prop
  | intro {t : ShapeTree} (self : t.entityAttributes? = none)
      (children : ∀ key c, key ≠ attributesKey → t.get? key = some (.tree c) → EntityFree c) :
      EntityFree t

theorem EntityFree.self {t : ShapeTree} (h : t.EntityFree) : t.entityAttributes? = none := by
  cases h
  assumption

/-- No element at the outermost level or below it stands for an entity. -/
def Residual (t : ShapeTree) : Prop := ∀ key c, t.get? key = some (.tree c) → c.EntityFree

theorem isEmpty_iff {t : ShapeTree} : t.isEmpty ↔ t = ∅ := by
  rw [isEmpty, Dict.isEmpty_iff]
  refine ⟨fun h => ?_, fun h => h ▸ rfl⟩
  rw [← ofDict_dict t, h]
  rfl

/-- An element stands for no entity if it has no attributes, or they have a version. -/
theorem entityAttributes?_eq_none_iff {t : ShapeTree} :
    t.entityAttributes? = none ↔ ∀ attributes, t.get? attributesKey = some (.tree attributes) →
      attributes = ∅ ∨ attributes.contains versionAttribute := by
  unfold entityAttributes? attributes?
  simp only [← isEmpty_iff]
  cases t.get? attributesKey with
  | none => simp
  | some a =>
    cases a with
    | scalar tag => simp [Shape.tree?]
    | tree c => simp [Shape.tree?, Option.filter_eq_none_iff, Decidable.imp_iff_not_or]

theorem skips_inside_iff {t : ShapeTree} {key : String} :
    (Place.inside t).skips key ↔ key = attributesKey := by
  refine and_iff_left ?_
  unfold Place.inside
  cases t.entityAttributes? <;> simp

theorem inside_ne_entity_iff {t : ShapeTree} :
    Place.inside t ≠ .entity ↔ t.entityAttributes? = none := by
  unfold Place.inside
  cases t.entityAttributes? <;> simp

/-! ## Extraction -/

/-- The element that an extraction leaves over stands for no entity. -/
theorem entityFree_residualAt (t : ShapeTree) : (t.residualAt (.inside t)).EntityFree := by
  induction t using ShapeTree.induction with
  | step t ih =>
    refine ⟨entityAttributes?_eq_none_iff.2 fun attributes h => ?_, fun key c hkey h => ?_⟩
    · -- attributes are only left over in an element that is no entity
      obtain ⟨-, hplace, hattributes⟩ | ⟨hvisited, -⟩ := of_get?_residualAt_eq_tree h
      · exact entityAttributes?_eq_none_iff.1 (inside_ne_entity_iff.1 hplace) attributes hattributes
      · exact absurd (skips_inside_iff.2 rfl) hvisited
    · obtain ⟨⟨hattributes, -⟩, -⟩ | ⟨-, d, hd, rfl⟩ := of_get?_residualAt_eq_tree h
      · exact absurd hattributes hkey
      · exact ih key d hd

/-- **What an extraction leaves over is a residual.** -/
theorem residual_extractEntities (t : ShapeTree) : (extractEntities t).residual.Residual := by
  intro key c h
  obtain ⟨⟨-, hplace⟩, -⟩ | ⟨-, d, -, rfl⟩ := of_get?_residualAt_eq_tree h
  · exact absurd rfl hplace
  · exact d.entityFree_residualAt

namespace EntityFree

/-- Nothing is taken out of an element without entities. -/
theorem residualAt_eq {t : ShapeTree} (h : t.EntityFree) : t.residualAt (.inside t) = t := by
  induction h with
  | @intro t self _ ih =>
    refine residualAt_eq_self (inside_ne_entity_iff.2 self) fun key c hc hvisited => ?_
    exact ih key c (fun hkey => hvisited (skips_inside_iff.2 hkey)) hc

/-- Nothing is discovered in an element without entities. -/
theorem discoveries_eq_nil {t : ShapeTree} (h : t.EntityFree) :
    t.discoveries (.inside t) = [] := by
  induction h with
  | @intro t self children ih =>
    refine discoveries_eq_nil_of fun key c hc hvisited => ?_
    have hkey : key ≠ attributesKey := fun hkey => hvisited (skips_inside_iff.2 hkey)
    exact ⟨(children key c hkey hc).self, ih key c hkey hc⟩

end EntityFree

/-- **Nothing is extracted from a residual.** -/
theorem Residual.extractEntities_eq {t : ShapeTree} (h : t.Residual) :
    extractEntities t = ⟨t, ∅⟩ := by
  have hresidual : t.residualAt .outermost = t :=
    residualAt_eq_self nofun fun key c hc _ => (h key c hc).residualAt_eq
  have hdiscoveries : t.discoveries .outermost = [] :=
    discoveries_eq_nil_of fun key c hc _ => ⟨(h key c hc).self, (h key c hc).discoveries_eq_nil⟩
  have hentities : t.fields.collectEntities t.sorted .outermost ∅ = ∅ := by
    rw [Fields.collectEntities_eq_foldl]
    change (t.discoveries .outermost).foldl _ _ = _
    rw [hdiscoveries]
    rfl
  exact congrArg₂ Extraction.mk hresidual hentities

/-! ## Merging -/

/-- Elements that stand for no entity do not merge to one. -/
theorem entityAttributes?_merge {s t : ShapeTree} (mode : MergeMode)
    (hs : s.entityAttributes? = none) (ht : t.entityAttributes? = none) :
    (s.merge mode t).entityAttributes? = none := by
  rw [entityAttributes?_eq_none_iff] at *
  intro attributes h
  rw [get?_merge] at h
  obtain h | h | ⟨a, b, ha, hb, rfl⟩ := Shape.unify?_eq_tree h
  · exact hs attributes h
  · exact ht attributes h
  · obtain rfl | hversion := hs a ha
    · rw [empty_merge]
      exact ht b hb
    · -- the attributes of both sides have a version if those of one side have one
      rw [contains_merge, hversion]
      exact .inr rfl

theorem EntityFree.merge {s t : ShapeTree} (mode : MergeMode) (hs : s.EntityFree)
    (ht : t.EntityFree) : (s.merge mode t).EntityFree := by
  -- a child of the result is a child of one side, or was merged from children of both
  induction hs generalizing t with
  | @intro s self children ih =>
    obtain ⟨self', children'⟩ := ht
    refine ⟨entityAttributes?_merge mode self self', fun key c hkey h => ?_⟩
    rw [get?_merge] at h
    obtain h | h | ⟨a, b, ha, hb, rfl⟩ := Shape.unify?_eq_tree h
    · exact children key c hkey h
    · exact children' key c hkey h
    · exact ih key a hkey ha (children' key b hkey hb)

/-- **Residuals merge to a residual**, in either mode. -/
theorem Residual.merge {s t : ShapeTree} (mode : MergeMode) (hs : s.Residual) (ht : t.Residual) :
    (s.merge mode t).Residual := by
  intro key c h
  rw [get?_merge] at h
  obtain h | h | ⟨a, b, ha, hb, rfl⟩ := Shape.unify?_eq_tree h
  · exact hs key c h
  · exact ht key c h
  · exact (hs key a ha).merge mode (ht key b hb)

end ShapeTree

end TrafficSchema
