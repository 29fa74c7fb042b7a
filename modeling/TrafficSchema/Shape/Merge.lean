import TrafficSchema.Shape.Basic

/-!
# Merging shapes

Two shapes of the same field, seen at different times or given by different files, are merged
into one. Merging has two modes. *Widening* takes the more general of the two: the greater tag
of two scalars, the structure where a scalar meets a structure, and the union of the fields of
two structures. *Overriding* lets the second shape win wherever it says anything, that is, is
not the scalar `none`.

`ShapeTree.get?_merge` describes merging field by field, and `Shape.unify` is the rule for one
field that both sides have.

`ShapeTree.leaves` forgets the nesting of a tree: it lists all scalar fields at any depth under
their own names. Fields of one name at different places are widened into one.
-/

namespace TrafficSchema

/-- What happens where two merged values disagree. -/
inductive MergeMode
  /-- The more general of the two is taken. -/
  | widen
  /-- The second one is taken if it says anything. -/
  | override
  deriving DecidableEq, Inhabited

namespace Shape

/-- Merges a scalar into a shape. -/
def unifyScalar (mode : MergeMode) : Shape → Tag → Shape
  | shape, .none => shape
  | shape, tag =>
    match mode, shape with
    | .override, _ => scalar tag
    | .widen, scalar t => scalar (t.join tag)
    | .widen, tree t => tree t

end Shape

/-- Merges fields, one after the other, into a tree. -/
def Fields.mergeInto (mode : MergeMode) :
    (fields : Fields) → fields.Sorted → ShapeTree → ShapeTree
  | nil, _, t => t
  | leaf key tag rest, h, t =>
    rest.mergeInto mode h.afterLeaf <| t.upsert key fun
      | none => .scalar tag
      | some shape => shape.unifyScalar mode tag
  | node key children rest, h, t =>
    rest.mergeInto mode h.afterNode <| t.upsert key fun
      | some (.tree c) => .tree (children.mergeInto mode h.children c)
      | _ => .tree ⟨children, h.children⟩

/-- The union of two trees; the shapes of a key of both are unified. -/
def ShapeTree.merge (mode : MergeMode) (s t : ShapeTree) : ShapeTree :=
  t.fields.mergeInto mode t.sorted s

/-- Merges two shapes of one field. -/
def Shape.unify (mode : MergeMode) : Shape → Shape → Shape
  | shape, scalar tag => shape.unifyScalar mode tag
  | tree s, tree t => tree (s.merge mode t)
  | scalar _, tree t => tree t

/-- Merges two shapes of one field, either of which may be missing. -/
def Shape.unify? (mode : MergeMode) : Option Shape → Option Shape → Option Shape
  | none, y => y
  | x, none => x
  | some x, some y => some (x.unify mode y)

/-- Adds a shape to what the field `key` has, widening it. -/
def ShapeTree.observe (t : ShapeTree) (key : String) (shape : Shape) : ShapeTree :=
  t.upsert key fun
    | none => shape
    | some old => old.unify .widen shape

namespace Fields

theorem get?_mergeInto (mode : MergeMode) (fields : Fields) (h : fields.Sorted) (t : ShapeTree)
    (key : String) :
    (fields.mergeInto mode h t).get? key =
      Shape.unify? mode (t.get? key) (Dict.findEntry key (fields.entries h)) := by
  have hnone (rest : Fields) (h : rest.Sorted) (hk : ∀ k ∈ rest.keys, key < k) :
      Dict.findEntry key (rest.entries h) = none :=
    Dict.findEntry_eq_none fun e he => hk e.1 <| by
      rw [keys_eq_map_entries rest h]
      exact List.mem_map_of_mem he
  induction fields generalizing t with
  | nil =>
    simp only [mergeInto, entries, Dict.findEntry]
    cases t.get? key <;> rfl
  | leaf k tag rest ih =>
    simp only [mergeInto, entries, Dict.findEntry]
    rw [ih h.afterLeaf, ShapeTree.get?_upsert]
    by_cases hk : key = k
    · subst hk
      rw [hnone rest h.afterLeaf h.1]
      cases t.get? key <;> simp [Shape.unify?, Shape.unify]
    · simp [hk]
  | node k children rest _ ih =>
    simp only [mergeInto, entries, Dict.findEntry]
    rw [ih h.afterNode, ShapeTree.get?_upsert]
    by_cases hk : key = k
    · subst hk
      rw [hnone rest h.afterNode h.1]
      rcases t.get? key with _ | _ | _ <;>
        simp [Shape.unify?, Shape.unify, ShapeTree.merge]
    · simp [hk]

end Fields

/-- Merging works key by key. -/
@[simp] theorem ShapeTree.get?_merge (mode : MergeMode) (s t : ShapeTree) (key : String) :
    (s.merge mode t).get? key = Shape.unify? mode (s.get? key) (t.get? key) :=
  t.fields.get?_mergeInto mode t.sorted s key

theorem ShapeTree.empty_merge (mode : MergeMode) (t : ShapeTree) :
    (∅ : ShapeTree).merge mode t = t := by
  ext key : 1
  rw [get?_merge, get?_empty, Shape.unify?]

/-- A merged tree has the keys of both sides. -/
theorem ShapeTree.contains_merge (mode : MergeMode) (s t : ShapeTree) (key : String) :
    (s.merge mode t).contains key = (s.contains key || t.contains key) := by
  change ((s.merge mode t).get? key).isSome = ((s.get? key).isSome || (t.get? key).isSome)
  rw [get?_merge]
  cases s.get? key <;> cases t.get? key <;> rfl

/-- A structure that was merged is that of one side, or those of both sides merged. -/
theorem Shape.unify?_eq_tree {mode : MergeMode} {x y : Option Shape} {c : ShapeTree}
    (h : unify? mode x y = some (tree c)) :
    x = some (tree c) ∨ y = some (tree c) ∨
      ∃ s t, x = some (tree s) ∧ y = some (tree t) ∧ c = s.merge mode t := by
  rcases x with _ | a
  · exact .inr (.inl h)
  rcases y with _ | b
  · exact .inl h
  simp only [unify?, Option.some.injEq] at h
  cases b with
  | scalar tag =>
    -- a scalar leaves the first side as it is, or takes the place of it
    refine .inl (congrArg some ?_)
    cases tag <;> cases mode <;> cases a <;> first | exact h | cases h
  | tree t =>
    cases a with
    | scalar tag => exact .inr (.inl (congrArg some h))
    | tree s =>
      simp only [unify, tree.injEq] at h
      exact .inr (.inr ⟨s, t, rfl, rfl, h.symm⟩)

/-- Observing a shape touches one key only. -/
@[simp] theorem ShapeTree.get?_observe (t : ShapeTree) (key j : String) (shape : Shape) :
    (t.observe key shape).get? j =
      if j = key then Shape.unify? .widen (t.get? key) (some shape) else t.get? j := by
  simp only [observe, get?_upsert]
  by_cases h : j = key
  · simp only [h, if_true]
    cases t.get? key <;> rfl
  · simp [h]

/-! ## Leaves -/

/-- Adds the scalar fields at any depth to a tree, under their own names. -/
def Fields.leavesInto : Fields → ShapeTree → ShapeTree
  | nil, acc => acc
  | leaf key tag rest, acc => rest.leavesInto (acc.observe key (.scalar tag))
  | node _ children rest, acc => rest.leavesInto (children.leavesInto acc)

/-- The scalar fields at any depth, each under its own name. -/
def ShapeTree.leaves (t : ShapeTree) : ShapeTree := t.fields.leavesInto ∅

end TrafficSchema
