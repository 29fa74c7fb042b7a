import TrafficSchema.Proofs.Fold
import TrafficSchema.Shape.Merge

/-!
# Widening is a join

Shapes are ordered by how much they admit: a scalar by its tag, every scalar below every tree,
and a tree below those that have all its fields with shapes that admit at least as much
(`Shape.Le`). This is a partial order, and widening two shapes gives their least upper bound
(`Shape.le_unify_left`, `Shape.le_unify_right`, `Shape.unify_le`). So `Shape` and `ShapeTree` are
semilattices with widening as the join, and the laws of widening are those of a join.
-/

namespace TrafficSchema

/-! ## The order -/

namespace Shape

/-- The widening order. -/
inductive Le : Shape → Shape → Prop
  | scalar {x y : Tag} (h : x ≤ y) : Le (.scalar x) (.scalar y)
  | scalarTree (x : Tag) (t : ShapeTree) : Le (.scalar x) (.tree t)
  /-- Every key of the lower tree is a key of the upper one, with a shape that is not lower. -/
  | tree {s t : ShapeTree} (keys : ∀ key, (s.get? key).isSome → (t.get? key).isSome)
      (fields : ∀ key a b, s.get? key = some a → t.get? key = some b → Le a b) :
      Le (.tree s) (.tree t)

instance : LE Shape := ⟨Le⟩

end Shape

instance : LE ShapeTree := ⟨fun s t => Shape.tree s ≤ Shape.tree t⟩

namespace Shape

theorem scalar_le_scalar {x y : Tag} : scalar x ≤ scalar y ↔ x ≤ y := by
  refine ⟨fun h => ?_, .scalar⟩
  cases h with
  | scalar h => exact h

theorem scalar_le_tree (x : Tag) (t : ShapeTree) : scalar x ≤ tree t := .scalarTree x t

theorem not_tree_le_scalar (t : ShapeTree) (x : Tag) : ¬ tree t ≤ scalar x := nofun

theorem tree_le_tree {s t : ShapeTree} : tree s ≤ tree t ↔ s ≤ t := Iff.rfl

end Shape

/-- A tree is below another one if all its fields are there, with shapes that are not lower. -/
theorem ShapeTree.le_iff {s t : ShapeTree} :
    s ≤ t ↔ ∀ key a, s.get? key = some a → ∃ b, t.get? key = some b ∧ a ≤ b := by
  constructor
  · intro h key a ha
    change Shape.Le (.tree s) (.tree t) at h
    cases h with
    | tree keys fields =>
      obtain ⟨b, hb⟩ := Option.isSome_iff_exists.1 (keys key (by simp [ha]))
      exact ⟨b, hb, fields key a b ha hb⟩
  · intro h
    refine .tree (fun key hkey => ?_) fun key a b ha hb => ?_
    · obtain ⟨a, ha⟩ := Option.isSome_iff_exists.1 hkey
      obtain ⟨b, hb, -⟩ := h key a ha
      simp [hb]
    · obtain ⟨b', hb', hab⟩ := h key a ha
      rw [hb, Option.some.injEq] at hb'
      rw [hb']
      exact hab

namespace Shape

protected theorem le_refl (a : Shape) : a ≤ a := by
  induction a using Shape.induction with
  | scalar x => exact scalar_le_scalar.2 (Tag.le_refl x)
  | tree t ih => exact ShapeTree.le_iff.2 fun key a ha => ⟨a, ha, ih key a ha⟩

protected theorem le_trans {a b c : Shape} (hab : a ≤ b) (hbc : b ≤ c) : a ≤ c := by
  induction a using Shape.induction generalizing b c with
  | scalar x =>
    cases c with
    | tree u => exact scalar_le_tree x u
    | scalar z =>
      cases b with
      | tree t => exact absurd hbc (not_tree_le_scalar t z)
      | scalar y =>
        rw [scalar_le_scalar] at *
        exact Tag.le_trans hab hbc
  | tree s ih =>
    cases b with
    | scalar y => exact absurd hab (not_tree_le_scalar s y)
    | tree t =>
      cases c with
      | scalar z => exact absurd hbc (not_tree_le_scalar t z)
      | tree u =>
        rw [tree_le_tree, ShapeTree.le_iff] at *
        intro key a ha
        obtain ⟨b, hb, hab⟩ := hab key a ha
        obtain ⟨c, hc, hbc⟩ := hbc key b hb
        exact ⟨c, hc, ih key a ha hab hbc⟩

protected theorem le_antisymm {a b : Shape} (hab : a ≤ b) (hba : b ≤ a) : a = b := by
  induction a using Shape.induction generalizing b with
  | scalar x =>
    cases b with
    | tree t => exact absurd hba (not_tree_le_scalar t x)
    | scalar y =>
      rw [scalar_le_scalar] at *
      rw [Tag.le_antisymm hab hba]
  | tree s ih =>
    cases b with
    | scalar y => exact absurd hab (not_tree_le_scalar s y)
    | tree t =>
      rw [tree_le_tree, ShapeTree.le_iff] at *
      congr 1
      ext key : 1
      cases hs : s.get? key with
      | some a =>
        obtain ⟨b, hb, hab⟩ := hab key a hs
        obtain ⟨a', ha', hba⟩ := hba key b hb
        rw [hs, Option.some.injEq] at ha'
        rw [hb, ih key a hs hab (ha' ▸ hba)]
      | none =>
        cases ht : t.get? key with
        | none => rfl
        | some b =>
          obtain ⟨a, ha, -⟩ := hba key b ht
          rw [hs] at ha
          cases ha

/-! ## Widening gives the least upper bound -/

@[simp] theorem unify_scalar_scalar (x y : Tag) :
    (scalar x).unify .widen (scalar y) = scalar (x.join y) := by
  cases y with
  | none => simp [unify, unifyScalar]
  | _ => rfl

@[simp] theorem unify_tree_scalar (t : ShapeTree) (x : Tag) :
    (tree t).unify .widen (scalar x) = tree t := by
  cases x <;> rfl

@[simp] theorem unify_scalar_tree (x : Tag) (t : ShapeTree) :
    (scalar x).unify .widen (tree t) = tree t := rfl

@[simp] theorem unify_tree_tree (s t : ShapeTree) :
    (tree s).unify .widen (tree t) = tree (s.merge .widen t) := rfl

theorem le_unify_left (a b : Shape) : a ≤ a.unify .widen b := by
  induction a using Shape.induction generalizing b with
  | scalar x =>
    cases b with
    | scalar y => simpa [scalar_le_scalar] using Tag.le_join_left x y
    | tree t => exact scalar_le_tree x t
  | tree s ih =>
    cases b with
    | scalar y => simpa using Shape.le_refl (tree s)
    | tree t =>
      rw [unify_tree_tree, tree_le_tree, ShapeTree.le_iff]
      intro key a ha
      rw [ShapeTree.get?_merge, ha]
      cases t.get? key with
      | none => exact ⟨a, rfl, Shape.le_refl a⟩
      | some b => exact ⟨a.unify .widen b, rfl, ih key a ha b⟩

theorem le_unify_right (a b : Shape) : b ≤ a.unify .widen b := by
  induction a using Shape.induction generalizing b with
  | scalar x =>
    cases b with
    | scalar y => simpa [scalar_le_scalar] using Tag.le_join_right x y
    | tree t => simpa using Shape.le_refl (tree t)
  | tree s ih =>
    cases b with
    | scalar y => simpa using scalar_le_tree y s
    | tree t =>
      rw [unify_tree_tree, tree_le_tree, ShapeTree.le_iff]
      intro key b hb
      rw [ShapeTree.get?_merge, hb]
      cases ha : s.get? key with
      | none => exact ⟨b, rfl, Shape.le_refl b⟩
      | some a => exact ⟨a.unify .widen b, rfl, ih key a ha b⟩

theorem unify_le {a b c : Shape} (hac : a ≤ c) (hbc : b ≤ c) : a.unify .widen b ≤ c := by
  induction a using Shape.induction generalizing b c with
  | scalar x =>
    cases b with
    | tree t => simpa using hbc
    | scalar y =>
      rw [unify_scalar_scalar]
      cases c with
      | tree u => exact scalar_le_tree _ u
      | scalar z =>
        rw [scalar_le_scalar] at *
        exact Tag.join_le hac hbc
  | tree s ih =>
    cases b with
    | scalar y => simpa using hac
    | tree t =>
      rw [unify_tree_tree]
      cases c with
      | scalar z => exact absurd hac (not_tree_le_scalar s z)
      | tree u =>
        rw [tree_le_tree, ShapeTree.le_iff] at *
        intro key d hd
        rw [ShapeTree.get?_merge] at hd
        -- the key is in one of the two trees, or in both
        cases ha : s.get? key with
        | none =>
          rw [ha, Shape.unify?] at hd
          exact hbc key d hd
        | some a =>
          obtain ⟨c, hc, hac⟩ := hac key a ha
          cases hb : t.get? key with
          | none =>
            rw [ha, hb, Shape.unify?, Option.some.injEq] at hd
            · exact ⟨c, hc, hd ▸ hac⟩
            · exact Option.some_ne_none a
          | some b =>
            obtain ⟨c', hc', hbc⟩ := hbc key b hb
            rw [hc, Option.some.injEq] at hc'
            rw [ha, hb, Shape.unify?, Option.some.injEq] at hd
            exact ⟨c, hc, hd ▸ ih key a ha hac (hc' ▸ hbc)⟩

instance : SemilatticeSup Shape where
  sup := unify .widen
  le_refl := Shape.le_refl
  le_trans _ _ _ := Shape.le_trans
  le_antisymm _ _ := Shape.le_antisymm
  le_sup_left := le_unify_left
  le_sup_right := le_unify_right
  sup_le _ _ _ := unify_le

instance : OrderBot Shape where
  bot := scalar .none
  bot_le a := by
    cases a with
    | scalar x => exact scalar_le_scalar.2 (Tag.none_le x)
    | tree t => exact scalar_le_tree .none t

end Shape

namespace ShapeTree

instance : SemilatticeSup ShapeTree where
  sup := merge .widen
  le_refl t := Shape.le_refl (.tree t)
  le_trans _ _ _ := Shape.le_trans
  le_antisymm _ _ hst hts := by simpa using Shape.le_antisymm hst hts
  le_sup_left s t := Shape.le_unify_left (.tree s) (.tree t)
  le_sup_right s t := Shape.le_unify_right (.tree s) (.tree t)
  sup_le _ _ _ := Shape.unify_le

instance : OrderBot ShapeTree where
  bot := ∅
  bot_le t := le_iff.2 fun key a ha => by simp at ha

theorem merge_widen_eq_sup (s t : ShapeTree) : s.merge .widen t = s ⊔ t := rfl

theorem empty_sup (t : ShapeTree) : ∅ ⊔ t = t := bot_sup_eq t

theorem sup_empty (t : ShapeTree) : t ⊔ ∅ = t := sup_bot_eq t

theorem get?_sup (s t : ShapeTree) (key : String) :
    (s ⊔ t).get? key = Shape.unify? .widen (s.get? key) (t.get? key) :=
  get?_merge .widen s t key

theorem contains_sup (s t : ShapeTree) (key : String) :
    (s ⊔ t).contains key ↔ s.contains key ∨ t.contains key := by
  rw [← merge_widen_eq_sup, contains_merge, Bool.or_eq_true]

end ShapeTree

/-! ## The laws -/

/-- **Widening is a join**: it gives the least upper bound of two trees, so it is commutative,
associative and idempotent, and widening all trees of a list together gives the same tree in
whatever order and however often they are listed. -/
theorem ShapeTree.isLUB_merge_widen :
    (∀ s t : ShapeTree, IsLUB {s, t} (s.merge .widen t)) ∧
    (∀ s t : ShapeTree, s.merge .widen t = t.merge .widen s) ∧
    (∀ s t u : ShapeTree,
      (s.merge .widen t).merge .widen u = s.merge .widen (t.merge .widen u)) ∧
    (∀ t : ShapeTree, t.merge .widen t = t) ∧
    ∀ (s t : ShapeTree) (l m : List ShapeTree), (∀ u, u ∈ s :: l ↔ u ∈ t :: m) →
      l.foldl (merge .widen) s = m.foldl (merge .widen) t :=
  ⟨fun _ _ => isLUB_pair, sup_comm, sup_assoc, sup_idem, fun _ _ _ _ => foldl_sup_eq_of_mem_iff⟩

theorem ShapeTree.foldl_merge_widen_repeated :
    (∀ u, u ∈ [singleton "id" (.scalar .int), singleton "id" (.scalar .str)] ↔
      u ∈ [singleton "id" (.scalar .str), singleton "id" (.scalar .int),
        singleton "id" (.scalar .str)]) ∧
    [singleton "id" (.scalar .str)].foldl (merge .widen) (singleton "id" (.scalar .int)) =
      [singleton "id" (.scalar .int), singleton "id" (.scalar .str)].foldl (merge .widen)
        (singleton "id" (.scalar .str)) := by
  have hmem : ∀ u, u ∈ [singleton "id" (.scalar .int), singleton "id" (.scalar .str)] ↔
      u ∈ [singleton "id" (.scalar .str), singleton "id" (.scalar .int),
        singleton "id" (.scalar .str)] := by
    intro u
    simp only [List.mem_cons, List.not_mem_nil, or_false]
    tauto
  exact ⟨hmem, isLUB_merge_widen.2.2.2.2 _ _ _ _ hmem⟩

end TrafficSchema
