import Mathlib.Order.Bounds.Lattice
import TrafficSchema.Proofs.Dict

/-!
# Folding repeated observations

What is seen several times is folded into one value, from the first observation on; of nothing
seen there is no value (`reduce?`). An associative operation may fold the parts of a list first
(`reduce?_append`).

In a semilattice the fold gives the least upper bound of the list's members (`isLUB_foldl_sup`).
So it depends on nothing but which members there are (`foldl_sup_eq_of_mem_iff`), and grows with
them (`foldl_sup_le_of_subset`, `reduce?_sup_mono`). In a linear order it is the greatest member
(`isGreatest_foldl_sup`).
-/

namespace TrafficSchema

/-- Folds a list from its first member on. -/
def reduce? {α : Type*} (op : α → α → α) : List α → Option α
  | [] => none
  | a :: l => some (l.foldl op a)

section Reduce

variable {α β : Type*} {op : α → α → α}

@[simp] theorem reduce?_nil : reduce? op [] = none := rfl

@[simp] theorem reduce?_cons (a : α) (l : List α) : reduce? op (a :: l) = some (l.foldl op a) := rfl

@[simp] theorem reduce?_eq_none_iff {l : List α} : reduce? op l = none ↔ l = [] := by
  cases l <;> simp

/-- The parts of a list can be folded before they are put together. -/
theorem reduce?_append [Std.Associative op] (l m : List α) :
    reduce? op (l ++ m) = Dict.combine? op (reduce? op l) (reduce? op m) := by
  cases l with
  | nil => simp
  | cons a l =>
    cases m with
    | nil => simp
    | cons b m => simp [List.foldl_assoc]

theorem reduce?_map {op' : β → β → β} (g : α → β) (hg : ∀ a b, g (op a b) = op' (g a) (g b))
    (l : List α) : reduce? op' (l.map g) = (reduce? op l).map g := by
  cases l with
  | nil => rfl
  | cons a l =>
    simp only [List.map_cons, reduce?_cons, Option.map_some, Option.some.injEq]
    induction l generalizing a with
    | nil => rfl
    | cons b l ih => simp only [List.map_cons, List.foldl_cons, ← hg, ih]

/-- There is a fold of the members that pass a test just if one of them does. -/
theorem map_reduce?_filter (p : α → Bool) (l : List α) :
    (reduce? op (l.filter p)).map (fun _ => ()) = if l.any p then some () else none := by
  cases hl : l.filter p with
  | nil =>
    have hany : l.any p = false := by
      simpa using List.filter_eq_nil_iff.1 hl
    rw [hany]
    rfl
  | cons a m =>
    have ha : a ∈ l.filter p := hl ▸ List.mem_cons_self
    obtain ⟨hmem, hp⟩ := List.mem_filter.1 ha
    rw [List.any_eq_true.2 ⟨a, hmem, hp⟩]
    rfl

/-- What holds of all members, and is kept by the operation, holds of the fold. -/
theorem reduce?_invariant {P : α → Prop} (hop : ∀ a b, P a → P b → P (op a b)) {l : List α}
    (hl : ∀ a ∈ l, P a) {c : α} (h : reduce? op l = some c) : P c := by
  cases l with
  | nil => cases h
  | cons a l =>
    simp only [reduce?_cons, Option.some.injEq] at h
    subst h
    induction l generalizing a with
    | nil => exact hl a (by simp)
    | cons b l ih =>
      refine ih (op a b) fun x hx => ?_
      rcases List.mem_cons.1 hx with rfl | hx
      · exact hop a b (hl a (by simp)) (hl b (by simp))
      · exact hl x (by simp [hx])

end Reduce

/-! ## Folding joins -/

section Semilattice

variable {α : Type*} [SemilatticeSup α]

theorem foldl_sup_le_iff {a b : α} {l : List α} :
    l.foldl (· ⊔ ·) a ≤ b ↔ a ≤ b ∧ ∀ x ∈ l, x ≤ b := by
  induction l generalizing a with
  | nil => simp
  | cons x l ih => simp [ih, and_assoc]

/-- A fold of joins is the least upper bound of what was folded. -/
theorem isLUB_foldl_sup (a : α) (l : List α) : IsLUB {x | x ∈ a :: l} (l.foldl (· ⊔ ·) a) := by
  have key (b : α) : b ∈ upperBounds {x | x ∈ a :: l} ↔ l.foldl (· ⊔ ·) a ≤ b := by
    simp [upperBounds, foldl_sup_le_iff]
  exact ⟨(key _).2 le_rfl, fun b hb => (key b).1 hb⟩

theorem foldl_sup_le_of_subset {a b : α} {l m : List α} (h : a :: l ⊆ b :: m) :
    l.foldl (· ⊔ ·) a ≤ m.foldl (· ⊔ ·) b :=
  (isLUB_foldl_sup a l).2 fun _ hx => (isLUB_foldl_sup b m).1 (h hx)

theorem foldl_sup_eq_of_mem_iff {a b : α} {l m : List α} (h : ∀ x, x ∈ a :: l ↔ x ∈ b :: m) :
    l.foldl (· ⊔ ·) a = m.foldl (· ⊔ ·) b :=
  le_antisymm (foldl_sup_le_of_subset fun x => (h x).1) (foldl_sup_le_of_subset fun x => (h x).2)

theorem reduce?_sup_le_iff {l : List α} {a b : α} (ha : reduce? (· ⊔ ·) l = some a) :
    a ≤ b ↔ ∀ x ∈ l, x ≤ b := by
  cases l with
  | nil => cases ha
  | cons x l =>
    cases ha
    rw [foldl_sup_le_iff, List.forall_mem_cons]

/-- More observations give a greater fold. -/
theorem reduce?_sup_mono {l m : List α} (h : l ⊆ m) {a : α} (ha : reduce? (· ⊔ ·) l = some a) :
    ∃ b, reduce? (· ⊔ ·) m = some b ∧ a ≤ b := by
  cases l with
  | nil => cases ha
  | cons x l =>
    cases m with
    | nil => simpa using h List.mem_cons_self
    | cons y m =>
      simp only [reduce?_cons, Option.some.injEq] at ha
      subst ha
      exact ⟨_, rfl, foldl_sup_le_of_subset h⟩

end Semilattice

/-- In a linear order a fold of joins is the greatest of what was folded. -/
theorem isGreatest_foldl_sup {α : Type*} [LinearOrder α] (a : α) (l : List α) :
    IsGreatest {x | x ∈ a :: l} (l.foldl (· ⊔ ·) a) := by
  refine ⟨?_, (isLUB_foldl_sup a l).1⟩
  change l.foldl (· ⊔ ·) a ∈ a :: l
  induction l generalizing a with
  | nil => exact List.mem_cons_self
  | cons b l ih =>
    -- the first join is one of the two
    have hrest := ih (a ⊔ b)
    rw [List.foldl_cons]
    rcases le_total a b with hab | hba
    · rw [sup_eq_right.2 hab] at hrest ⊢
      exact List.mem_cons_of_mem a hrest
    · rw [sup_eq_left.2 hba] at hrest ⊢
      exact List.cons_subset_cons a (List.subset_cons_self b l) hrest

end TrafficSchema
