import TrafficSchema.Proofs.Shape.Paths

/-!
# The height of a tree

The height of a tree is the greatest number of trees on a path into it, the tree itself included.
A bound on it is a bound on the heights of all fields, one level lower (`ShapeTree.height_le_iff`),
and on the lengths of all paths that lead to a tree (`ShapeTree.height_le_iff_at?`).

Merging two trees does not make them higher, in either mode (`ShapeTree.height_merge_le`), and
widening loses no height, since the height grows with the tree (`ShapeTree.height_mono`).
-/

namespace TrafficSchema

/-- The greatest number of trees on a path into some fields. -/
def Fields.height : Fields → Nat
  | nil => 0
  | leaf _ _ rest => rest.height
  | node _ children rest => max (children.height + 1) rest.height

/-- The greatest number of trees on a path into a tree, the tree itself included. -/
def ShapeTree.height (t : ShapeTree) : Nat := t.fields.height + 1

/-- The height of the tree of a shape; a scalar has none. -/
def Shape.height : Shape → Nat
  | scalar _ => 0
  | tree t => t.height

theorem Fields.height_le_iff {fields : Fields} (h : fields.Sorted) {n : Nat} :
    fields.height ≤ n ↔ ∀ e ∈ fields.entries h, e.2.height ≤ n := by
  induction fields with
  | nil => simp [height, entries]
  | leaf key tag rest ih => simp [height, entries, Shape.height, ih h.afterLeaf]
  | node key children rest _ ih =>
    rw [height, Nat.max_le, ih h.afterNode, entries, List.forall_mem_cons]
    rfl

namespace ShapeTree

/-! ## Bounds -/

/-- A tree is one level higher than its fields. -/
theorem height_le_iff {t : ShapeTree} {n : Nat} :
    t.height ≤ n + 1 ↔ ∀ key a, t.get? key = some a → a.height ≤ n := by
  rw [height, Nat.add_le_add_iff_right, Fields.height_le_iff t.sorted]
  exact ⟨fun h key a ha => h (key, a) (mem_entries_iff.2 ha), fun h e he =>
    h e.1 e.2 (mem_entries_iff.1 he)⟩

theorem height_pos (t : ShapeTree) : 0 < t.height := Nat.succ_pos t.fields.height

theorem height_empty_le (n : Nat) : (∅ : ShapeTree).height ≤ n + 1 := Nat.le_add_left 1 n

/-- A tree in a field is lower. -/
theorem height_lt_of_get? {t c : ShapeTree} {key : String} (h : t.get? key = some (.tree c)) :
    c.height < t.height := by
  have hle : t.height ≤ t.fields.height + 1 := Nat.le_refl _
  exact Nat.lt_succ_of_le (height_le_iff.1 hle key (.tree c) h)

/-- Only the trees among the fields count. -/
theorem height_le_of_trees {t : ShapeTree} {n : Nat}
    (h : ∀ key c, t.get? key = some (.tree c) → c.height ≤ n) : t.height ≤ n + 1 := by
  refine height_le_iff.2 fun key a ha => ?_
  cases a with
  | scalar tag => exact Nat.zero_le n
  | tree c => exact h key c ha

/-- A path that leads to a tree goes through one tree more than it has steps, and a bound on all such
paths is a bound on the height. -/
theorem height_le_iff_at? {t : ShapeTree} {n : Nat} :
    t.height ≤ n + 1 ↔
      ∀ path c, (Shape.tree t).at? path = some (.tree c) → path.length ≤ n := by
  constructor
  · intro h path c hc
    induction path generalizing t n with
    | nil => exact Nat.zero_le n
    | cons key path ih =>
      obtain ⟨a, ha, hc⟩ := Option.bind_eq_some_iff.1 hc
      obtain ⟨d, rfl⟩ := Shape.exists_eq_tree_of_at? hc
      have hd : d.height ≤ n := height_le_iff.1 h key (.tree d) ha
      obtain ⟨m, rfl⟩ := Nat.exists_eq_add_of_le' (Nat.le_trans d.height_pos hd)
      exact Nat.succ_le_succ (ih hd hc)
  · intro h
    induction t using ShapeTree.induction generalizing n with
    | step t ih =>
      refine height_le_of_trees fun key d hd => ?_
      -- the path to the field shows that there is room for one more level
      have hpath : 0 < n := h [key] d (by simp [hd])
      obtain ⟨m, rfl⟩ := Nat.exists_eq_add_of_le' hpath
      refine ih key d hd fun path c hc => ?_
      exact Nat.le_of_succ_le_succ (h (key :: path) c (by simp [hd, hc]))

theorem length_lt_height_of_at? {t c : ShapeTree} {path : List String}
    (h : (Shape.tree t).at? path = some (.tree c)) : path.length < t.height := by
  have hle : t.height ≤ t.fields.height + 1 := Nat.le_refl _
  exact Nat.lt_succ_of_le (height_le_iff_at?.1 hle path c h)

theorem height_insert_le {t : ShapeTree} {n : Nat} (ht : t.height ≤ n + 1) (key : String)
    {a : Shape} (ha : a.height ≤ n) : (t.insert key a).height ≤ n + 1 := by
  rw [height_le_iff] at *
  intro k b hb
  rw [get?_insert] at hb
  split at hb
  · cases hb
    exact ha
  · exact ht k b hb

theorem height_singleton_le {n : Nat} (key : String) {a : Shape} (ha : a.height ≤ n) :
    (singleton key a).height ≤ n + 1 :=
  height_insert_le (height_empty_le n) key ha

/-! ## Merging -/

/-- **Merging does not make trees higher**, in either mode. -/
theorem height_merge_le (mode : MergeMode) {s t : ShapeTree} {n : Nat} (hs : s.height ≤ n)
    (ht : t.height ≤ n) : (s.merge mode t).height ≤ n := by
  induction s using ShapeTree.induction generalizing t n with
  | step s ih =>
    cases n with
    | zero => exact absurd hs (Nat.not_le.2 s.height_pos)
    | succ n =>
      refine height_le_of_trees fun key c hc => ?_
      rw [get?_merge] at hc
      obtain hc | hc | ⟨a, b, ha, hb, rfl⟩ := Shape.unify?_eq_tree hc
      · exact height_le_iff.1 hs key (.tree c) hc
      · exact height_le_iff.1 ht key (.tree c) hc
      · exact ih key a ha (height_le_iff.1 hs key (.tree a) ha)
          (height_le_iff.1 ht key (.tree b) hb)

/-- A tree that admits more is not lower. -/
theorem height_mono {s t : ShapeTree} (h : s ≤ t) : s.height ≤ t.height := by
  induction s using ShapeTree.induction generalizing t with
  | step s ih =>
    refine height_le_of_trees (n := t.fields.height) fun key c hc => ?_
    obtain ⟨b, hb, hcb⟩ := le_iff.1 h key (.tree c) hc
    cases b with
    | scalar tag => exact absurd hcb (Shape.not_tree_le_scalar c tag)
    | tree d =>
      have hle : c.height ≤ d.height := ih key c hc (Shape.tree_le_tree.1 hcb)
      exact Nat.le_trans hle (Nat.le_of_lt_succ (height_lt_of_get? hb))

end ShapeTree

theorem Shape.height_unify_le (mode : MergeMode) {a b : Shape} {n : Nat} (ha : a.height ≤ n)
    (hb : b.height ≤ n) : (a.unify mode b).height ≤ n := by
  cases hc : a.unify mode b with
  | scalar tag => exact Nat.zero_le n
  | tree c =>
    have hunify : unify? mode (some a) (some b) = some (tree c) := congrArg some hc
    obtain h | h | ⟨s, t, hs, ht, rfl⟩ := unify?_eq_tree hunify
    · cases h
      exact ha
    · cases h
      exact hb
    · cases hs
      cases ht
      exact ShapeTree.height_merge_le mode ha hb

namespace ShapeTree

theorem height_observe_le {t : ShapeTree} {n : Nat} (ht : t.height ≤ n + 1) (key : String)
    {a : Shape} (ha : a.height ≤ n) : (t.observe key a).height ≤ n + 1 := by
  rw [height_le_iff] at *
  intro k b hb
  rw [get?_observe] at hb
  split at hb
  · cases hold : t.get? key with
    | none =>
      rw [hold, Shape.unify?, Option.some.injEq] at hb
      exact hb ▸ ha
    | some old =>
      rw [hold, Shape.unify?, Option.some.injEq] at hb
      exact hb ▸ Shape.height_unify_le .widen (ht key old hold) ha
  · exact ht k b hb

/-- Observing scalars does not make a tree higher. -/
theorem height_observe_scalar_le {t : ShapeTree} {n : Nat} (ht : t.height ≤ n + 1) (key : String)
    (tag : Tag) : (t.observe key (.scalar tag)).height ≤ n + 1 :=
  height_observe_le ht key (Nat.zero_le n)

/-! ## Leaves -/

theorem height_leavesInto_le (fields : Fields) {acc : ShapeTree} (h : acc.height ≤ 1) :
    (fields.leavesInto acc).height ≤ 1 := by
  induction fields generalizing acc with
  | nil => exact h
  | leaf key tag rest ih => exact ih (height_observe_scalar_le h key tag)
  | node key children rest ihc ih => exact ih (ihc h)

/-- The leaves of a tree are not nested. -/
theorem height_leaves_le (t : ShapeTree) : t.leaves.height ≤ 1 :=
  height_leavesInto_le t.fields (height_empty_le 0)

end ShapeTree

end TrafficSchema
