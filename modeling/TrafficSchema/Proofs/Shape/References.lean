import TrafficSchema.Proofs.Scalar.Infer
import TrafficSchema.Proofs.Shape.Leaves
import TrafficSchema.Proofs.Shape.Override

/-!
# Shapes without references

The tag of a captured value is never a reference (`Tag.isReference_infer`), and merging makes no
tags that were not there. So a shape that is built from the tags of values by observing and merging
holds no reference at any depth (`Shape.ReferenceFree.unify`).
-/

namespace TrafficSchema

/-! ## Tags -/

namespace Tag

/-- The greater of two tags is one of them. -/
theorem join_eq_or (x y : Tag) : x.join y = x ∨ x.join y = y := by
  unfold join
  split
  · exact .inr rfl
  · exact .inl rfl

/-- No value is taken for a reference. -/
theorem isReference_infer (value : String) : (infer value).isReference = false := by
  simp only [infer]
  split
  · rfl
  · split
    · exact (by decide : ∀ x ∈ [str, int, float], x.isReference = false) _ (ofInteger_mem _)
    · split
      · exact (by decide : ∀ x ∈ [str, float], x.isReference = false) _ (ofDecimal_mem _)
      · split
        · rfl
        · split <;> rfl

end Tag

/-! ## Shapes -/

/-- No scalar in a shape, at any depth, is a reference. -/
inductive Shape.ReferenceFree : Shape → Prop
  | scalar {x : Tag} (h : x.isReference = false) : ReferenceFree (.scalar x)
  | tree {t : ShapeTree} (h : ∀ key a, t.get? key = some a → ReferenceFree a) :
      ReferenceFree (.tree t)

/-- What a path leads to has no references either. -/
theorem Shape.ReferenceFree.at? {a b : Shape} (ha : a.ReferenceFree) {path : List String}
    (hb : a.at? path = some b) : b.ReferenceFree := by
  induction path generalizing a with
  | nil =>
    rw [at?_nil, Option.some.injEq] at hb
    rwa [← hb]
  | cons key path ih =>
    cases ha with
    | scalar h => cases hb
    | tree h =>
      obtain ⟨c, hc, hb⟩ := Option.bind_eq_some_iff.1 hb
      exact ih (h key c hc) hb

/-- No scalar in a tree, at any depth, is a reference. -/
def ShapeTree.ReferenceFree (t : ShapeTree) : Prop := (Shape.tree t).ReferenceFree

namespace ShapeTree.ReferenceFree

variable {s t : ShapeTree}

theorem get? (h : t.ReferenceFree) {key : String} {a : Shape} (ha : t.get? key = some a) :
    a.ReferenceFree := by
  cases h with
  | tree h => exact h key a ha

theorem isReference (h : t.ReferenceFree) {key : String} {x : Tag}
    (hx : t.get? key = some (.scalar x)) : x.isReference = false := by
  cases h.get? hx with
  | scalar h => exact h

theorem empty : (∅ : ShapeTree).ReferenceFree := .tree nofun

theorem insert (h : t.ReferenceFree) (key : String) {a : Shape} (ha : a.ReferenceFree) :
    (t.insert key a).ReferenceFree := by
  refine .tree fun j b hb => ?_
  rw [get?_insert] at hb
  split at hb
  · cases hb
    exact ha
  · exact h.get? hb

theorem singleton (key : String) {a : Shape} (ha : a.ReferenceFree) :
    (singleton key a).ReferenceFree := empty.insert key ha

/-- The scalar fields at any depth are no references. -/
theorem isReference_of_mem_scalars (h : t.ReferenceFree) {e : String × Tag}
    (he : e ∈ t.scalars) : e.2.isReference = false := by
  induction t using ShapeTree.induction with
  | step t ih =>
    obtain hfield | ⟨key, c, hc, hmem⟩ := mem_scalars_iff_get?.1 he
    · exact h.isReference hfield
    · exact ih key c hc (h.get? hc) hmem

end ShapeTree.ReferenceFree

/-! ## Merging -/

namespace Shape

/-- A scalar that is merged into a shape takes its place, or leaves it as it is. -/
theorem unify_scalar_eq_or (mode : MergeMode) (a : Shape) (x : Tag) :
    a.unify mode (scalar x) = a ∨ a.unify mode (scalar x) = scalar x := by
  by_cases hx : x = .none
  · rw [hx]
    exact .inl rfl
  cases mode with
  | override => exact .inr (unify_override_scalar a hx)
  | widen =>
    cases a with
    | tree t => exact .inl (unify_tree_scalar t x)
    | scalar y =>
      rw [unify_scalar_scalar]
      exact (y.join_eq_or x).imp (congrArg scalar) (congrArg scalar)

/-- **Merging brings in no references**, in either mode. -/
theorem ReferenceFree.unify {a b : Shape} (ha : a.ReferenceFree) (mode : MergeMode)
    (hb : b.ReferenceFree) : (a.unify mode b).ReferenceFree := by
  induction ha generalizing b with
  | @scalar x hx =>
    cases hb with
    | tree hb => exact .tree hb
    | @scalar y hy =>
      rcases unify_scalar_eq_or mode (.scalar x) y with h | h <;> rw [h]
      · exact .scalar hx
      · exact .scalar hy
  | @tree s hs ih =>
    cases hb with
    | @scalar y hy =>
      rcases unify_scalar_eq_or mode (.tree s) y with h | h <;> rw [h]
      · exact .tree hs
      · exact .scalar hy
    | @tree t ht =>
      refine .tree fun key c hc => ?_
      rw [ShapeTree.get?_merge] at hc
      -- a field of the result is that of one side, or was merged from those of both
      cases ha : s.get? key with
      | none =>
        rw [ha] at hc
        exact ht key c hc
      | some a =>
        cases hb : t.get? key with
        | none =>
          rw [ha, hb] at hc
          exact hs key c (ha.trans hc)
        | some b =>
          rw [ha, hb] at hc
          cases hc
          exact ih key a ha (ht key b hb)

end Shape

namespace ShapeTree.ReferenceFree

variable {s t : ShapeTree}

theorem merge (hs : s.ReferenceFree) (mode : MergeMode) (ht : t.ReferenceFree) :
    (s.merge mode t).ReferenceFree := Shape.ReferenceFree.unify hs mode ht

theorem sup (hs : s.ReferenceFree) (ht : t.ReferenceFree) : (s ⊔ t).ReferenceFree := by
  rw [← merge_widen_eq_sup]
  exact hs.merge .widen ht

theorem observe (ht : t.ReferenceFree) (key : String) {a : Shape} (ha : a.ReferenceFree) :
    (t.observe key a).ReferenceFree := by
  rw [observe_eq_sup]
  exact ht.sup (.singleton key ha)

/-- The leaves are no references. -/
theorem leaves (ht : t.ReferenceFree) : t.leaves.ReferenceFree := by
  have hfold (l : List (String × Tag)) (acc : ShapeTree) (hacc : acc.ReferenceFree)
      (hl : ∀ e ∈ l, e.2.isReference = false) :
      (l.foldl (fun t e => t.observe e.1 (.scalar e.2)) acc).ReferenceFree := by
    induction l generalizing acc with
    | nil => exact hacc
    | cons e l ih =>
      obtain ⟨he, hl⟩ := List.forall_mem_cons.1 hl
      exact ih _ (hacc.observe e.1 (.scalar he)) hl
  rw [ShapeTree.leaves, Fields.leavesInto_eq]
  exact hfold t.scalars ∅ .empty fun e he => ht.isReference_of_mem_scalars he

end ShapeTree.ReferenceFree

end TrafficSchema
