import TrafficSchema.Proofs.Shape.Folding
import TrafficSchema.Proofs.Shape.Leaves

/-!
# Flattening

Scalars that are observed one after the other are kept under their names, each with the greatest of
its tags (`ShapeTree.get?_foldl_observe_eq_some_iff`). So the leaves of a tree are scalars: one under
each name that a scalar field has at any depth, with the greatest tag of all fields of this name
(`ShapeTree.get?_leaves_eq_some_iff`).

Trees may be flattened before they are widened together, or after. What is flattened after has no
more leaves, and just the same ones unless a scalar of one tree meets a structure of the other
(`ShapeTree.leaves_merge_widen`).
-/

namespace TrafficSchema.ShapeTree

/-! ## Observed scalars -/

/-- The scalars of a list, observed one after the other under their names. -/
def ofScalars (l : List (String × Tag)) : ShapeTree :=
  l.foldl (fun t e => t.observe e.1 (.scalar e.2)) ∅

section Observed

variable {l : List (String × Tag)} {name : String} {a : Shape}

/-- Some observation has a shape under a name just if the shape is a scalar seen there. -/
theorem exists_get?_singletons_iff :
    (∃ u ∈ ∅ :: l.map fun e => singleton e.1 (.scalar e.2), u.get? name = some a) ↔
      ∃ x, a = .scalar x ∧ (name, x) ∈ l := by
  simp only [List.mem_cons, List.mem_map, exists_eq_or_imp, get?_empty, reduceCtorEq, false_or,
    exists_exists_and_eq_and, singleton, get?_insert, Option.ite_none_right_eq_some,
    Option.some.injEq]
  constructor
  · rintro ⟨⟨key, x⟩, hmem, rfl, rfl⟩
    exact ⟨x, rfl, hmem⟩
  · rintro ⟨x, rfl, hmem⟩
    exact ⟨(name, x), hmem, rfl, rfl⟩

theorem widest_ofScalars (l : List (String × Tag)) (name : String) :
    Shape.Widest (·.get? name) (∅ :: l.map fun e => singleton e.1 (.scalar e.2))
      ((ofScalars l).get? name) := by
  have hfold : ofScalars l =
      (l.map fun e => singleton e.1 (.scalar e.2)).foldl (merge .widen) ∅ := by
    simp only [ofScalars, observe_eq_sup, merge_widen_eq_sup, List.foldl_map]
  rw [hfold]
  exact widest_get?_foldl ∅ _ name

/-- **Each name has the greatest of the tags observed under it.** -/
theorem get?_ofScalars_eq_some_iff : (ofScalars l).get? name = some a ↔
    ∃ x, a = .scalar x ∧ IsGreatest {y | (name, y) ∈ l} x := by
  have hwidest := widest_ofScalars l name
  -- no observation has a structure under any name
  have hscalar : ∀ u ∈ ∅ :: l.map fun e => singleton e.1 (.scalar e.2), ∀ c,
      u.get? name ≠ some (.tree c) := by
    intro u hu c hc
    obtain ⟨x, hx, -⟩ := exists_get?_singletons_iff.1 ⟨u, hu, hc⟩
    cases hx
  have hseen : {y | ∃ u ∈ ∅ :: l.map fun e => singleton e.1 (.scalar e.2),
      u.get? name = some (.scalar y)} = {y | (name, y) ∈ l} := by
    simp only [exists_get?_singletons_iff, Shape.scalar.injEq, exists_eq_left']
  cases a with
  | scalar x =>
    rw [hwidest.eq_scalar_iff, hseen, and_iff_right hscalar]
    simp only [Shape.scalar.injEq, exists_eq_left']
  | tree c =>
    simp only [reduceCtorEq, false_and, exists_false, iff_false]
    intro hc
    obtain ⟨u, hu, d, hd⟩ := hwidest.eq_tree_iff.1 ⟨c, hc⟩
    exact hscalar u hu d hd

/-- A name is kept just if something was observed under it. -/
theorem contains_ofScalars_iff : (ofScalars l).contains name ↔ ∃ x, (name, x) ∈ l := by
  rw [contains_iff]
  constructor
  · rintro ⟨a, ha⟩
    obtain ⟨x, -, hx, -⟩ := get?_ofScalars_eq_some_iff.1 ha
    exact ⟨x, hx⟩
  · rintro ⟨x, hx⟩
    obtain ⟨u, hu, ha⟩ := exists_get?_singletons_iff.2 ⟨x, rfl, hx⟩
    by_contra hnone
    rw [← Option.isSome_iff_exists, Option.not_isSome_iff_eq_none] at hnone
    rw [(widest_ofScalars l name).eq_none_iff.1 hnone u hu] at ha
    cases ha

end Observed

/-! ## Leaves by name -/

section Leaves

variable {t : ShapeTree} {name : String} {a : Shape}

theorem leaves_eq_ofScalars (t : ShapeTree) : t.leaves = ofScalars t.scalars :=
  Fields.leavesInto_eq t.fields ∅

/-- **A leaf has the greatest tag of all scalar fields of its name.** -/
theorem get?_leaves_eq_some_iff : t.leaves.get? name = some a ↔ ∃ x, a = .scalar x ∧
    IsGreatest {y | ∃ path, (Shape.tree t).at? (path ++ [name]) = some (.scalar y)} x := by
  rw [leaves_eq_ofScalars, get?_ofScalars_eq_some_iff]
  simp only [mem_scalars_iff_at?]

theorem contains_leaves_iff : t.leaves.contains name ↔
    ∃ path x, (Shape.tree t).at? (path ++ [name]) = some (.scalar x) := by
  rw [leaves_eq_ofScalars, contains_ofScalars_iff, exists_comm]
  simp only [mem_scalars_iff_at?]

end Leaves

/-! ## Flattening before and after -/

section Merge

variable {s t : ShapeTree}

theorem not_clash_self (t : ShapeTree) : ¬ t.Clash t := by
  rintro ⟨path, x, c, hx, hc⟩
  rw [hx] at hc
  cases hc

/-- What clashes with nothing keeps its leaves when it is widened. -/
theorem leaves_le_leaves_sup (h : ¬ s.Clash t) : s.leaves ≤ (s ⊔ t).leaves :=
  leaves_mono_of_not_clash le_sup_left fun hclash =>
    (clash_of_clash_sup hclash).elim (not_clash_self s) h

/-- **No leaves are lost unless a scalar meets a structure.** -/
theorem leaves_sup_of_not_clash (hst : ¬ s.Clash t) (hts : ¬ t.Clash s) :
    (s ⊔ t).leaves = s.leaves ⊔ t.leaves := by
  refine le_antisymm (leaves_sup_le s t) (sup_le (leaves_le_leaves_sup hst) ?_)
  rw [sup_comm]
  exact leaves_le_leaves_sup hts

/-- **Flattening and widening.** The leaves of a tree are scalars; they have the names of its scalar
fields at any depth, and each has the greatest tag of all fields of its name. Trees that are widened
together and then flattened have no more leaves than trees that are flattened and then widened
together, and the same ones if no path leads to a scalar in one tree and to a structure in the
other. -/
theorem leaves_merge_widen :
    (∀ (t : ShapeTree) (name : String),
      (∀ a, t.leaves.get? name = some a → ∃ x, a = .scalar x) ∧
      (t.leaves.contains name ↔
        ∃ path x, (Shape.tree t).at? (path ++ [name]) = some (.scalar x)) ∧
      ∀ x, t.leaves.get? name = some (.scalar x) ↔
        IsGreatest {y | ∃ path, (Shape.tree t).at? (path ++ [name]) = some (.scalar y)} x) ∧
    ∀ s t : ShapeTree, (s.merge .widen t).leaves ≤ s.leaves.merge .widen t.leaves ∧
      (¬ s.Clash t → ¬ t.Clash s →
        (s.merge .widen t).leaves = s.leaves.merge .widen t.leaves) := by
  refine ⟨fun t name => ⟨fun a ha => ?_, contains_leaves_iff, fun x => ?_⟩,
    fun s t => ⟨leaves_sup_le s t, leaves_sup_of_not_clash⟩⟩
  · obtain ⟨x, rfl, -⟩ := get?_leaves_eq_some_iff.1 ha
    exact ⟨x, rfl⟩
  · rw [get?_leaves_eq_some_iff]
    simp only [Shape.scalar.injEq, exists_eq_left']

/-- An order with an identifier of its own and one for its line. -/
def numberedLine : ShapeTree :=
  ofList [("id", .scalar .int), ("line", .tree (singleton "id" (.scalar .str)))]

/-- An order that tells more about its line. -/
def pricedLine : ShapeTree :=
  singleton "line" (.tree (ofList [("id", .scalar .bool), ("price", .scalar .float)]))

theorem leaves_merge_widen_lines :
    (¬ numberedLine.Clash pricedLine ∧ ¬ pricedLine.Clash numberedLine) ∧
      (numberedLine.merge .widen pricedLine).leaves =
        numberedLine.leaves.merge .widen pricedLine.leaves := by
  have hclash : ¬ numberedLine.Clash pricedLine ∧ ¬ pricedLine.Clash numberedLine := by decide
  exact ⟨hclash, (leaves_merge_widen.2 numberedLine pricedLine).2 hclash.1 hclash.2⟩

example : ((singleton "item" (.scalar .str)).merge .widen
    (singleton "item" (.tree (singleton "name" (.scalar .str))))).leaves =
      singleton "name" (.scalar .str) := by
  decide

end Merge

end TrafficSchema.ShapeTree
