import TrafficSchema.Proofs.Shape.Widening

/-!
# Overriding shapes

A shape that overrides another one says everything it has to say at once: overriding with it a
second time changes nothing (`Shape.unify_unify_override`). The result of the first time already
is a tree where the second shape is one, and the tag of the second shape where that is a scalar
other than `none`; below a tree the same holds of every field.

Widening has this property too, so merging in either mode absorbs what was merged last
(`ShapeTree.merge_merge_right`).
-/

namespace TrafficSchema

namespace Shape

/-! ## One field -/

@[simp] theorem unify_override_none (a : Shape) : a.unify .override (scalar .none) = a := rfl

/-- A tag that says anything wins. -/
theorem unify_override_scalar (a : Shape) {x : Tag} (hx : x ≠ .none) :
    a.unify .override (scalar x) = scalar x := by
  cases x with
  | none => exact absurd rfl hx
  | _ => rfl

@[simp] theorem unify_override_tree (s t : ShapeTree) :
    (tree s).unify .override (tree t) = tree (s.merge .override t) := rfl

@[simp] theorem unify_override_scalar_tree (x : Tag) (t : ShapeTree) :
    (scalar x).unify .override (tree t) = tree t := rfl

theorem unify_override_self (a : Shape) : a.unify .override a = a := by
  induction a using Shape.induction with
  | scalar x =>
    by_cases hx : x = .none
    · rw [hx, unify_override_none]
    · exact unify_override_scalar _ hx
  | tree t ih =>
    rw [unify_override_tree]
    congr 1
    ext key : 1
    rw [ShapeTree.get?_merge]
    cases ha : t.get? key with
    | none => rfl
    | some a => exact congrArg some (ih key a ha)

/-- **Overriding twice with the same shape is overriding once.** -/
theorem unify_unify_override (a b : Shape) :
    (a.unify .override b).unify .override b = a.unify .override b := by
  induction b using Shape.induction generalizing a with
  | scalar x =>
    by_cases hx : x = .none
    · rw [hx, unify_override_none]
    · rw [unify_override_scalar _ hx, unify_override_scalar _ hx]
  | tree t ih =>
    cases a with
    | scalar x => rw [unify_override_scalar_tree, unify_override_self]
    | tree s =>
      rw [unify_override_tree, unify_override_tree]
      congr 1
      ext key : 1
      rw [ShapeTree.get?_merge, ShapeTree.get?_merge]
      cases hb : t.get? key with
      | none => cases s.get? key <;> rfl
      | some b =>
        cases s.get? key with
        | none => exact congrArg some (unify_override_self b)
        | some a => exact congrArg some (ih key b hb a)

end Shape

/-! ## Merging again in either mode -/

namespace ShapeTree

theorem merge_self (mode : MergeMode) (t : ShapeTree) : t.merge mode t = t := by
  cases mode with
  | widen => exact sup_idem t
  | override => exact Shape.tree.inj (Shape.unify_override_self (.tree t))

/-- A tree that was merged last is absorbed. -/
theorem merge_merge_right (mode : MergeMode) (s t : ShapeTree) :
    (s.merge mode t).merge mode t = s.merge mode t := by
  cases mode with
  | widen => exact sup_right_idem s t
  | override => exact Shape.tree.inj (Shape.unify_unify_override (.tree s) (.tree t))

/-- When widening, a tree that was merged first is absorbed as well. -/
theorem merge_widen_merge_left (s t : ShapeTree) :
    (s.merge .widen t).merge .widen s = s.merge .widen t :=
  sup_of_le_left le_sup_left

end ShapeTree

end TrafficSchema
