import Mathlib.Order.WithBot
import TrafficSchema.Proofs.Shape.Paths

/-!
# Folding observations

What may stand at a place of a tree is linearly ordered: nothing at all is least, then come scalars
by their tags, and a structure is greatest (`Shape.extent`). Widening takes the greater of the two
(`Shape.extent_unify?`), so a fold of trees has at each place the greatest of what the trees have
there (`ShapeTree.widest_foldl`).

Read case by case (`Shape.Widest`), this is what a field of a folded tree says about the
observations (`ShapeTree.at?_foldl_merge_widen`).
-/

namespace TrafficSchema

instance : LinearOrder Tag where
  le_refl := Tag.le_refl
  le_trans _ _ _ := Tag.le_trans
  le_antisymm _ _ := Tag.le_antisymm
  le_total := Tag.le_total
  toDecidableLE := inferInstance

theorem Tag.join_eq_max (x y : Tag) : x.join y = max x y := (max_def x y).symm

namespace Shape

/-! ## One place -/

/-- How much stands at a place: nothing, a scalar with its tag, or a structure. -/
def extent : Option Shape → WithBot (WithTop Tag)
  | none => ⊥
  | some (scalar x) => ((x : WithTop Tag) : WithBot (WithTop Tag))
  | some (tree _) => ⊤

@[simp] theorem extent_none : extent none = ⊥ := rfl

@[simp] theorem extent_scalar (z : Tag) :
    extent (some (scalar z)) = ((z : WithTop Tag) : WithBot (WithTop Tag)) := rfl

@[simp] theorem extent_tree (c : ShapeTree) : extent (some (tree c)) = ⊤ := rfl

theorem extent_eq_bot_iff {x : Option Shape} : extent x = ⊥ ↔ x = none := by
  rcases x with _ | _ | _ <;> simp

theorem extent_eq_top_iff {x : Option Shape} : extent x = ⊤ ↔ ∃ c, x = some (tree c) := by
  rcases x with _ | z | c
  · simp
  · simp [← WithBot.coe_top]
  · simp

theorem extent_eq_coe_iff {x : Option Shape} {z : Tag} :
    extent x = ((z : WithTop Tag) : WithBot (WithTop Tag)) ↔ x = some (scalar z) := by
  rcases x with _ | y | c
  · simp
  · simp
  · simp [← WithBot.coe_top]

/-- **Widening takes the greater of the two.** -/
theorem extent_unify? (x y : Option Shape) :
    extent (unify? .widen x y) = extent x ⊔ extent y := by
  rcases x with _ | a
  · simp [unify?_none_left]
  rcases y with _ | b
  · simp [unify?_none_right]
  cases a with
  | tree s => cases b <;> simp [unify?]
  | scalar x =>
    cases b with
    | tree t => simp [unify?]
    | scalar y => simp [unify?, Tag.join_eq_max]

/-! ## The greatest of several places -/

/-- Nothing among what the members of a list have is greater, and one of them has as much. -/
def Widest {α : Type*} (f : α → Option Shape) (l : List α) (x : Option Shape) : Prop :=
  IsGreatest {k | ∃ a ∈ l, extent (f a) = k} (extent x)

namespace Widest

variable {α : Type*} {f : α → Option Shape} {l : List α} {x : Option Shape}

theorem eq_none_iff (h : Widest f l x) : x = none ↔ ∀ a ∈ l, f a = none := by
  obtain ⟨⟨a, ha, hax⟩, hupper⟩ := h
  rw [← extent_eq_bot_iff]
  constructor
  · intro hx b hb
    have hle := hupper ⟨b, hb, rfl⟩
    rwa [hx, le_bot_iff, extent_eq_bot_iff] at hle
  · intro hnone
    rw [← hax, hnone a ha, extent_none]

theorem eq_tree_iff (h : Widest f l x) :
    (∃ c, x = some (tree c)) ↔ ∃ a ∈ l, ∃ c, f a = some (tree c) := by
  obtain ⟨⟨a, ha, hax⟩, hupper⟩ := h
  rw [← extent_eq_top_iff]
  constructor
  · intro hx
    exact ⟨a, ha, extent_eq_top_iff.1 (hax.trans hx)⟩
  · rintro ⟨b, hb, c, hc⟩
    have hle := hupper ⟨b, hb, rfl⟩
    rwa [hc, extent_tree, top_le_iff] at hle

/-- A scalar that is found has the greatest of the tags. -/
theorem isGreatest_tag {z : Tag} (h : Widest f l (some (scalar z))) :
    IsGreatest {y | ∃ a ∈ l, f a = some (scalar y)} z := by
  obtain ⟨⟨a, ha, hax⟩, hupper⟩ := h
  refine ⟨⟨a, ha, extent_eq_coe_iff.1 hax⟩, ?_⟩
  rintro y ⟨b, hb, hy⟩
  have hle := hupper ⟨b, hb, rfl⟩
  simpa [hy] using hle

theorem exists_eq_scalar_iff (h : Widest f l x) : (∃ z, x = some (scalar z)) ↔
    (∀ a ∈ l, ∀ c, f a ≠ some (tree c)) ∧ ∃ a ∈ l, ∃ y, f a = some (scalar y) := by
  have hnone := h.eq_none_iff
  have htree := h.eq_tree_iff
  constructor
  · rintro ⟨z, rfl⟩
    refine ⟨fun a ha c hc => ?_, ?_⟩
    · obtain ⟨d, hd⟩ := htree.2 ⟨a, ha, c, hc⟩
      cases hd
    · obtain ⟨a, ha, hz⟩ := h.isGreatest_tag.1
      exact ⟨a, ha, z, hz⟩
  · rintro ⟨hnotree, a, ha, y, hy⟩
    rcases x with _ | z | c
    · have ha' := hnone.1 rfl a ha
      rw [hy] at ha'
      cases ha'
    · exact ⟨z, rfl⟩
    · obtain ⟨b, hb, d, hd⟩ := htree.1 ⟨c, rfl⟩
      exact absurd hd (hnotree b hb d)

theorem eq_scalar_iff (h : Widest f l x) {z : Tag} : x = some (scalar z) ↔
    (∀ a ∈ l, ∀ c, f a ≠ some (tree c)) ∧
      IsGreatest {y | ∃ a ∈ l, f a = some (scalar y)} z := by
  constructor
  · rintro rfl
    exact ⟨(h.exists_eq_scalar_iff.1 ⟨z, rfl⟩).1, h.isGreatest_tag⟩
  · rintro ⟨hnotree, hgreatest⟩
    obtain ⟨a, ha, hz⟩ := hgreatest.1
    obtain ⟨y, rfl⟩ := h.exists_eq_scalar_iff.2 ⟨hnotree, a, ha, z, hz⟩
    rw [h.isGreatest_tag.unique hgreatest]

end Widest

end Shape

namespace ShapeTree

/-! ## Any number of trees -/

theorem extent_foldl (t : ShapeTree) (l : List ShapeTree) (path : List String) :
    Shape.extent ((Shape.tree (l.foldl (merge .widen) t)).at? path) =
      (l.map fun u => Shape.extent ((Shape.tree u).at? path)).foldl (· ⊔ ·)
        (Shape.extent ((Shape.tree t).at? path)) := by
  induction l generalizing t with
  | nil => rfl
  | cons u l ih =>
    rw [List.foldl_cons, ih, merge_widen_eq_sup, Shape.at?_sup, Shape.extent_unify?]
    rfl

/-- **A fold has at each place the greatest of what the trees have there.** -/
theorem widest_foldl (t : ShapeTree) (l : List ShapeTree) (path : List String) :
    Shape.Widest (fun u => (Shape.tree u).at? path) (t :: l)
      ((Shape.tree (l.foldl (merge .widen) t)).at? path) := by
  have hset : {k | ∃ u ∈ t :: l, Shape.extent ((Shape.tree u).at? path) = k} =
      {k | k ∈ (t :: l).map fun u => Shape.extent ((Shape.tree u).at? path)} :=
    Set.ext fun k => List.mem_map.symm
  rw [Shape.Widest, hset, extent_foldl]
  exact isGreatest_foldl_sup _ _

/-- A fold has under each key the greatest of what the trees have there. -/
theorem widest_get?_foldl (t : ShapeTree) (l : List ShapeTree) (key : String) :
    Shape.Widest (·.get? key) (t :: l) ((l.foldl (merge .widen) t).get? key) := by
  have hat (u : ShapeTree) : (Shape.tree u).at? [key] = u.get? key := by simp
  simpa only [hat] using widest_foldl t l [key]

/-- **A fold of observations keeps just what was observed.** At each place it has a structure just
if one of the trees has a structure there; otherwise it has a scalar just if one of them has a
scalar there, and its tag is the greatest of those seen; and it has nothing just if none of them has
anything. -/
theorem at?_foldl_merge_widen (t : ShapeTree) (l : List ShapeTree) (path : List String) :
    ((∃ c, (Shape.tree (l.foldl (merge .widen) t)).at? path = some (.tree c)) ↔
      ∃ u ∈ t :: l, ∃ c, (Shape.tree u).at? path = some (.tree c)) ∧
    ((∃ x, (Shape.tree (l.foldl (merge .widen) t)).at? path = some (.scalar x)) ↔
      (∀ u ∈ t :: l, ∀ c, (Shape.tree u).at? path ≠ some (.tree c)) ∧
        ∃ u ∈ t :: l, ∃ x, (Shape.tree u).at? path = some (.scalar x)) ∧
    (∀ x, (Shape.tree (l.foldl (merge .widen) t)).at? path = some (.scalar x) ↔
      (∀ u ∈ t :: l, ∀ c, (Shape.tree u).at? path ≠ some (.tree c)) ∧
        IsGreatest {y | ∃ u ∈ t :: l, (Shape.tree u).at? path = some (.scalar y)} x) ∧
    ((Shape.tree (l.foldl (merge .widen) t)).at? path = none ↔
      ∀ u ∈ t :: l, (Shape.tree u).at? path = none) := by
  have hwidest := widest_foldl t l path
  exact ⟨hwidest.eq_tree_iff, hwidest.exists_eq_scalar_iff, fun _ => hwidest.eq_scalar_iff,
    hwidest.eq_none_iff⟩

end ShapeTree

end TrafficSchema
