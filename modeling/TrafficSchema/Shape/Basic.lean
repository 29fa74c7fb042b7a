import TrafficSchema.Dict
import TrafficSchema.Tag

/-!
# Shapes

The shape of a JSON object or of an XML element is a tree: a dictionary from field names to
shapes, where a shape is the tag of a scalar field or again a tree.

`ShapeTree` is built on `Fields`, a plain inductive type on which functions recurse, together
with a proof that the keys increase in every dictionary of the tree. So equal trees are equal
values. `ShapeTree.dict` and `ShapeTree.ofDict` pass between a tree and the dictionary of its
fields and are inverse to each other (`ShapeTree.ofDict_dict`, `ShapeTree.dict_ofDict`); all
operations on one level of a tree go through them. Proofs about all levels use
`ShapeTree.induction` or `Shape.induction`.
-/

namespace TrafficSchema

/-! ## Field lists -/

/-- The fields of a tree in a row: each is a scalar with its tag, or holds fields itself. -/
inductive Fields where
  | nil
  | leaf (key : String) (tag : Tag) (rest : Fields)
  | node (key : String) (children : Fields) (rest : Fields)
  deriving DecidableEq, Inhabited

namespace Fields

/-- The keys of the fields, those of nested fields left out. -/
def keys : Fields → List String
  | nil => []
  | leaf key _ rest => key :: rest.keys
  | node key _ rest => key :: rest.keys

/-- Keys increase, here and in all nested fields. -/
def Sorted : Fields → Prop
  | nil => True
  | leaf key _ rest => (∀ k ∈ rest.keys, key < k) ∧ rest.Sorted
  | node key children rest => (∀ k ∈ rest.keys, key < k) ∧ children.Sorted ∧ rest.Sorted

theorem Sorted.afterLeaf {key : String} {tag : Tag} {rest : Fields}
    (h : (leaf key tag rest).Sorted) : rest.Sorted := h.2

theorem Sorted.afterNode {key : String} {children rest : Fields}
    (h : (node key children rest).Sorted) : rest.Sorted := h.2.2

theorem Sorted.children {key : String} {children rest : Fields}
    (h : (node key children rest).Sorted) : children.Sorted := h.2.1

end Fields

/-! ## Trees and shapes -/

/-- The shape of a structured value: a shape for each of its keys. -/
structure ShapeTree where
  fields : Fields
  sorted : fields.Sorted
  deriving DecidableEq

/-- The shape of one field: a scalar type or a nested structure. -/
inductive Shape where
  | scalar (tag : Tag)
  | tree (tree : ShapeTree)
  deriving DecidableEq

instance : Inhabited Shape := ⟨.scalar .none⟩

namespace Fields

/-- The fields as pairs of a key and a shape. -/
def entries : (fields : Fields) → fields.Sorted → List (String × Shape)
  | nil, _ => []
  | leaf key tag rest, h => (key, .scalar tag) :: rest.entries h.afterLeaf
  | node key children rest, h =>
    (key, .tree ⟨children, h.children⟩) :: rest.entries h.afterNode

/-- The fields that pairs of a key and a shape stand for. -/
def ofEntries : List (String × Shape) → Fields
  | [] => nil
  | (key, .scalar tag) :: rest => leaf key tag (ofEntries rest)
  | (key, .tree t) :: rest => node key t.fields (ofEntries rest)

theorem keys_eq_map_entries (fields : Fields) (h : fields.Sorted) :
    fields.keys = (fields.entries h).map (·.1) := by
  induction fields with
  | nil => rfl
  | leaf key tag rest ih => simp [keys, entries, ih h.afterLeaf]
  | node key children rest _ ih => simp [keys, entries, ih h.afterNode]

theorem pairwise_entries (fields : Fields) (h : fields.Sorted) :
    (fields.entries h).Pairwise (·.1 < ·.1) := by
  induction fields with
  | nil => exact .nil
  | leaf key tag rest ih =>
    refine List.pairwise_cons.2 ⟨fun e he => h.1 e.1 ?_, ih h.afterLeaf⟩
    rw [keys_eq_map_entries rest h.afterLeaf]
    exact List.mem_map_of_mem he
  | node key children rest _ ih =>
    refine List.pairwise_cons.2 ⟨fun e he => h.1 e.1 ?_, ih h.afterNode⟩
    rw [keys_eq_map_entries rest h.afterNode]
    exact List.mem_map_of_mem he

theorem ofEntries_entries (fields : Fields) (h : fields.Sorted) :
    ofEntries (fields.entries h) = fields := by
  induction fields with
  | nil => rfl
  | leaf key tag rest ih => simp [entries, ofEntries, ih h.afterLeaf]
  | node key children rest _ ih => simp [entries, ofEntries, ih h.afterNode]

theorem keys_ofEntries (l : List (String × Shape)) : (ofEntries l).keys = l.map (·.1) := by
  induction l with
  | nil => rfl
  | cons head rest ih =>
    obtain ⟨key, shape⟩ := head
    cases shape <;> simp [ofEntries, keys, ih]

theorem sorted_ofEntries {l : List (String × Shape)} (h : l.Pairwise (·.1 < ·.1)) :
    (ofEntries l).Sorted := by
  induction l with
  | nil => trivial
  | cons head rest ih =>
    obtain ⟨key, shape⟩ := head
    have hkeys : ∀ k ∈ (ofEntries rest).keys, key < k := by
      intro k hk
      rw [keys_ofEntries] at hk
      obtain ⟨e, he, rfl⟩ := List.mem_map.1 hk
      exact (List.pairwise_cons.1 h).1 e he
    cases shape with
    | scalar tag => exact ⟨hkeys, ih (List.pairwise_cons.1 h).2⟩
    | tree t => exact ⟨hkeys, t.sorted, ih (List.pairwise_cons.1 h).2⟩

theorem entries_ofEntries {l : List (String × Shape)} (h : (ofEntries l).Sorted) :
    (ofEntries l).entries h = l := by
  induction l with
  | nil => rfl
  | cons head rest ih =>
    obtain ⟨key, shape⟩ := head
    cases shape with
    | scalar tag => simp [ofEntries, entries, ih h.afterLeaf]
    | tree t => simp [ofEntries, entries, ih h.afterNode]

end Fields

namespace ShapeTree

/-! ## Trees as dictionaries -/

/-- The dictionary of the fields of a tree. -/
def dict (t : ShapeTree) : Dict Shape :=
  ⟨t.fields.entries t.sorted, Fields.pairwise_entries t.fields t.sorted⟩

/-- The tree with the fields of a dictionary. -/
def ofDict (d : Dict Shape) : ShapeTree :=
  ⟨Fields.ofEntries d.entries, Fields.sorted_ofEntries d.sorted⟩

@[simp] theorem ofDict_dict (t : ShapeTree) : ofDict t.dict = t := by
  obtain ⟨fields, h⟩ := t
  simp [ofDict, dict, Fields.ofEntries_entries]

@[simp] theorem dict_ofDict (d : Dict Shape) : (ofDict d).dict = d := by
  obtain ⟨l, h⟩ := d
  simp [ofDict, dict, Fields.entries_ofEntries]

/-- The tree without fields. -/
def empty : ShapeTree := ⟨.nil, trivial⟩

instance : EmptyCollection ShapeTree := ⟨empty⟩

instance : Inhabited ShapeTree := ⟨empty⟩

/-- The fields in increasing order of their keys. -/
def entries (t : ShapeTree) : List (String × Shape) := t.dict.entries

/-- The keys in increasing order. -/
def keys (t : ShapeTree) : List String := t.dict.keys

/-- The number of fields. -/
def size (t : ShapeTree) : Nat := t.dict.size

/-- Whether there are no fields. -/
def isEmpty (t : ShapeTree) : Bool := t.dict.isEmpty

/-- The shape of the field `key`. -/
def get? (t : ShapeTree) (key : String) : Option Shape := t.dict.get? key

/-- Whether there is a field `key`. -/
def contains (t : ShapeTree) (key : String) : Bool := t.dict.contains key

/-- Replaces the shape of the field `key`, if there is one, by `f` of it. -/
def upsert (t : ShapeTree) (key : String) (f : Option Shape → Shape) : ShapeTree :=
  ofDict (t.dict.upsert key f)

/-- Gives the field `key` a shape, whatever it had. -/
def insert (t : ShapeTree) (key : String) (shape : Shape) : ShapeTree :=
  ofDict (t.dict.insert key shape)

/-- Drops the field `key`. -/
def erase (t : ShapeTree) (key : String) : ShapeTree := ofDict (t.dict.erase key)

/-- The tree of a list of fields; of several with one key the last counts. -/
def ofList (l : List (String × Shape)) : ShapeTree := ofDict (Dict.ofList l)

/-- Keeps the fields whose key and shape pass a test. -/
def filter (p : String → Shape → Bool) (t : ShapeTree) : ShapeTree :=
  ofDict (t.dict.filterMap fun key shape => if p key shape then some shape else none)

/-- The tree with the single field `key`. -/
def singleton (key : String) (shape : Shape) : ShapeTree := insert ∅ key shape

/-! ## Lookups determine a tree -/

@[ext] theorem ext_get? {s t : ShapeTree} (h : ∀ key, s.get? key = t.get? key) : s = t := by
  have hd : s.dict = t.dict := Dict.ext_get? h
  rw [← ofDict_dict s, hd, ofDict_dict]

@[simp] theorem get?_empty (key : String) : (∅ : ShapeTree).get? key = none := rfl

@[simp] theorem get?_upsert (t : ShapeTree) (key j : String) (f : Option Shape → Shape) :
    (t.upsert key f).get? j = if j = key then some (f (t.get? key)) else t.get? j := by
  simp [upsert, get?]

@[simp] theorem get?_insert (t : ShapeTree) (key j : String) (shape : Shape) :
    (t.insert key shape).get? j = if j = key then some shape else t.get? j := by
  simp [insert, get?]

@[simp] theorem get?_erase (t : ShapeTree) (key j : String) :
    (t.erase key).get? j = if j = key then none else t.get? j := by
  simp [erase, get?]

@[simp] theorem get?_filter (p : String → Shape → Bool) (t : ShapeTree) (key : String) :
    (t.filter p).get? key = (t.get? key).filter (p key) := by
  simp only [filter, get?, dict_ofDict, Dict.get?_filterMap]
  cases h : t.dict.get? key <;> simp [Option.filter]

theorem mem_entries_iff {t : ShapeTree} {key : String} {shape : Shape} :
    (key, shape) ∈ t.entries ↔ t.get? key = some shape :=
  Dict.mem_entries_iff

/-! ## Induction over all levels -/

theorem sizeOf_fields_lt {fields : Fields} {h : fields.Sorted} {key : String} {c : ShapeTree}
    (hc : (key, Shape.tree c) ∈ fields.entries h) : sizeOf c.fields < sizeOf fields := by
  induction fields with
  | nil => simp [Fields.entries] at hc
  | leaf k tag rest ih =>
    simp only [Fields.entries, List.mem_cons, Prod.mk.injEq, reduceCtorEq, and_false,
      false_or] at hc
    have := ih hc
    simp only [Fields.leaf.sizeOf_spec]
    omega
  | node k children rest _ ih =>
    simp only [Fields.entries, List.mem_cons, Prod.mk.injEq, Shape.tree.injEq] at hc
    simp only [Fields.node.sizeOf_spec]
    rcases hc with ⟨_, rfl⟩ | hc
    · show sizeOf children < _
      omega
    · have := ih hc
      omega

/-- A statement on trees holds if it holds of every tree whose structured fields all
satisfy it. -/
theorem induction {motive : ShapeTree → Prop}
    (step : ∀ t, (∀ key c, t.get? key = some (.tree c) → motive c) → motive t)
    (t : ShapeTree) : motive t :=
  step t fun _ c h =>
    have : sizeOf c.fields < sizeOf t.fields := sizeOf_fields_lt (mem_entries_iff.2 h)
    induction step c
termination_by sizeOf t.fields

end ShapeTree

namespace Shape

/-- A statement on shapes holds if it holds of scalars, and of every tree whose fields all
satisfy it. -/
theorem induction {motive : Shape → Prop} (scalar : ∀ x, motive (.scalar x))
    (tree : ∀ t, (∀ key a, t.get? key = some a → motive a) → motive (.tree t)) (a : Shape) :
    motive a := by
  have onTrees (t : ShapeTree) : motive (.tree t) := by
    induction t using ShapeTree.induction with
    | step t ih =>
      refine tree t fun key a h => ?_
      cases a with
      | scalar x => exact scalar x
      | tree c => exact ih key c h
  cases a with
  | scalar x => exact scalar x
  | tree t => exact onTrees t

/-- The tree of a structured field. -/
def tree? : Shape → Option ShapeTree
  | tree t => some t
  | scalar _ => none

/-- The tag of a scalar field. -/
def tag? : Shape → Option Tag
  | scalar t => some t
  | tree _ => none

end Shape

/-! ## Attributes -/

/-- The key under which the shape of an XML element keeps the types of its attributes. -/
def attributesKey : String := "properties"

/-- The types of the attributes, if the tree has a structure under their key. -/
def ShapeTree.attributes? (t : ShapeTree) : Option ShapeTree :=
  (t.get? attributesKey).bind Shape.tree?

end TrafficSchema
