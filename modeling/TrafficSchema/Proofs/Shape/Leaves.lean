import TrafficSchema.Proofs.Shape.Paths

/-!
# Leaves

The leaves of a tree are the least tree that has each scalar field of the tree under the field's own
name (`ShapeTree.leaves_le_iff`). When trees are widened together no leaves are added
(`ShapeTree.leaves_sup_le`), but some may be lost, since a structure takes the place of a scalar.
This is the only reason: leaves grow with the tree unless scalars clash with structures
(`ShapeTree.leaves_mono_of_not_clash`).
-/

namespace TrafficSchema

/-! ## Scalar fields -/

/-- The scalar fields at any depth, with their own names. -/
def Fields.scalars : Fields → List (String × Tag)
  | nil => []
  | leaf key tag rest => (key, tag) :: rest.scalars
  | node _ children rest => children.scalars ++ rest.scalars

/-- The scalar fields of a tree at any depth, with their own names. -/
def ShapeTree.scalars (t : ShapeTree) : List (String × Tag) := t.fields.scalars

/-- The leaves are the scalar fields, observed one after the other. -/
theorem Fields.leavesInto_eq (fields : Fields) (acc : ShapeTree) : fields.leavesInto acc =
    fields.scalars.foldl (fun t e => t.observe e.1 (.scalar e.2)) acc := by
  induction fields generalizing acc with
  | nil => rfl
  | leaf key tag rest ih => exact ih (acc.observe key (.scalar tag))
  | node key children rest ihc ih =>
    rw [leavesInto, scalars, List.foldl_append, ih, ihc]

theorem Fields.mem_scalars_iff {fields : Fields} (h : fields.Sorted) {name : String} {x : Tag} :
    (name, x) ∈ fields.scalars ↔ (name, .scalar x) ∈ fields.entries h ∨
      ∃ key c, (key, Shape.tree c) ∈ fields.entries h ∧ (name, x) ∈ c.scalars := by
  induction fields with
  | nil => simp [scalars, entries]
  | leaf key tag rest ih =>
    rw [scalars, entries, List.mem_cons, ih h.afterLeaf]
    simp [or_assoc]
  | node key children rest _ ih =>
    rw [scalars, entries, List.mem_append, ih h.afterNode]
    constructor
    · rintro (hc | hfield | ⟨k, c, hmem, hc⟩)
      · exact .inr ⟨key, ⟨children, h.children⟩, List.mem_cons_self, hc⟩
      · exact .inl (List.mem_cons_of_mem _ hfield)
      · exact .inr ⟨k, c, List.mem_cons_of_mem _ hmem, hc⟩
    · rintro (hfield | ⟨k, c, hmem, hc⟩)
      · exact .inr (.inl (by simpa using hfield))
      · rcases List.mem_cons.1 hmem with heq | hmem
        · cases heq
          exact .inl hc
        · exact .inr (.inr ⟨k, c, hmem, hc⟩)

namespace ShapeTree

variable {s t u : ShapeTree} {path : List String} {name : String} {x : Tag}

/-- A scalar field is a field of the tree or a scalar field of the structure in one. -/
theorem mem_scalars_iff_get? : (name, x) ∈ t.scalars ↔ t.get? name = some (.scalar x) ∨
    ∃ key c, t.get? key = some (.tree c) ∧ (name, x) ∈ c.scalars := by
  rw [scalars, Fields.mem_scalars_iff t.sorted]
  simp only [← mem_entries_iff]
  rfl

/-- **The scalar fields are those that a path leads to.** -/
theorem mem_scalars_iff_at? :
    (name, x) ∈ t.scalars ↔ ∃ path, (Shape.tree t).at? (path ++ [name]) = some (.scalar x) := by
  constructor
  · intro h
    induction t using ShapeTree.induction with
    | step t ih =>
      obtain hfield | ⟨key, c, hc, hmem⟩ := mem_scalars_iff_get?.1 h
      · exact ⟨[], by simp [hfield]⟩
      · obtain ⟨path, hpath⟩ := ih key c hc hmem
        exact ⟨key :: path, by simp [hc, hpath]⟩
  · rintro ⟨path, h⟩
    refine mem_scalars_iff_get?.2 ?_
    induction path generalizing t with
    | nil => exact .inl (by simpa using h)
    | cons key path ih =>
      obtain ⟨a, ha, h⟩ := Option.bind_eq_some_iff.1 h
      cases a with
      | scalar y => cases path <;> cases h
      | tree c => exact .inr ⟨key, c, ha, mem_scalars_iff_get?.2 (ih h)⟩

/-! ## Leaves -/

theorem observe_eq_sup (t : ShapeTree) (key : String) (a : Shape) :
    t.observe key a = t ⊔ singleton key a := by
  ext j : 1
  rw [get?_observe, get?_sup, singleton, get?_insert, get?_empty]
  by_cases hj : j = key
  · rw [if_pos hj, if_pos hj, hj]
  · rw [if_neg hj, if_neg hj, Shape.unify?_none_right]

theorem singleton_le_iff {key : String} {a : Shape} :
    singleton key a ≤ u ↔ ∃ b, u.get? key = some b ∧ a ≤ b := by
  rw [le_iff]
  simp only [singleton, get?_insert, get?_empty, Option.ite_none_right_eq_some, Option.some.injEq]
  constructor
  · exact fun h => h key a ⟨rfl, rfl⟩
  · rintro h _ _ ⟨rfl, rfl⟩
    exact h

theorem singleton_sup (key : String) (a b : Shape) :
    singleton key (a ⊔ b) = singleton key a ⊔ singleton key b := by
  ext j : 1
  rw [get?_sup, singleton, singleton, singleton, get?_insert, get?_insert, get?_insert]
  by_cases hj : j = key
  · rw [if_pos hj, if_pos hj, if_pos hj, Shape.unify?_some_some]
  · rw [if_neg hj, if_neg hj, if_neg hj, get?_empty, Shape.unify?_none_left]

theorem foldl_observe_le_iff {l : List (String × Tag)} :
    l.foldl (fun t e => t.observe e.1 (.scalar e.2)) t ≤ u ↔
      t ≤ u ∧ ∀ e ∈ l, singleton e.1 (.scalar e.2) ≤ u := by
  induction l generalizing t with
  | nil => simp
  | cons e l ih =>
    rw [List.foldl_cons, ih, observe_eq_sup, sup_le_iff, List.forall_mem_cons, and_assoc]

/-- **The leaves are the least tree that has every scalar field under its own name.** -/
theorem leaves_le_iff : t.leaves ≤ u ↔ ∀ path name x,
    (Shape.tree t).at? (path ++ [name]) = some (.scalar x) → singleton name (.scalar x) ≤ u := by
  rw [leaves, Fields.leavesInto_eq, foldl_observe_le_iff]
  constructor
  · exact fun h path name x hx => h.2 (name, x) (mem_scalars_iff_at?.2 ⟨path, hx⟩)
  · intro h
    refine ⟨bot_le, fun e he => ?_⟩
    obtain ⟨path, hpath⟩ := mem_scalars_iff_at?.1 he
    exact h path e.1 e.2 hpath

theorem singleton_le_leaves (h : (Shape.tree t).at? (path ++ [name]) = some (.scalar x)) :
    singleton name (.scalar x) ≤ t.leaves :=
  leaves_le_iff.1 le_rfl path name x h

/-- Widening adds no leaves. -/
theorem leaves_sup_le (s t : ShapeTree) : (s ⊔ t).leaves ≤ s.leaves ⊔ t.leaves := by
  refine leaves_le_iff.2 fun path name z hz => ?_
  rw [Shape.at?_sup] at hz
  obtain hs | ht | ⟨x, y, hs, ht, rfl⟩ := Shape.unify?_eq_scalar hz
  · exact le_sup_of_le_left (singleton_le_leaves hs)
  · exact le_sup_of_le_right (singleton_le_leaves ht)
  · have hjoin : Shape.scalar (x.join y) = .scalar x ⊔ .scalar y :=
      (Shape.unify_scalar_scalar x y).symm
    rw [hjoin, singleton_sup]
    exact sup_le_sup (singleton_le_leaves hs) (singleton_le_leaves ht)

end ShapeTree

/-! ## Clashes -/

namespace Shape

/-- Some path leads to a scalar in the first shape and to a structure in the second. -/
def Clash (a b : Shape) : Prop :=
  ∃ path x c, a.at? path = some (scalar x) ∧ b.at? path = some (tree c)

theorem scalar_clash_iff {x : Tag} {b : Shape} : (scalar x).Clash b ↔ ∃ c, b = tree c := by
  constructor
  · rintro ⟨path, y, c, hx, hc⟩
    cases path with
    | nil => exact ⟨c, by simpa using hc⟩
    | cons key path => cases hx
  · rintro ⟨c, rfl⟩
    exact ⟨[], x, c, rfl, rfl⟩

theorem not_tree_clash_scalar (s : ShapeTree) (y : Tag) : ¬ (tree s).Clash (scalar y) := by
  rintro ⟨path, x, c, -, hc⟩
  cases path <;> cases hc

/-- Structures clash where the shapes of a common field do. -/
theorem tree_clash_tree_iff {s t : ShapeTree} : (tree s).Clash (tree t) ↔
    ∃ key a b, s.get? key = some a ∧ t.get? key = some b ∧ a.Clash b := by
  constructor
  · rintro ⟨path, x, c, hx, hc⟩
    cases path with
    | nil => cases hx
    | cons key path =>
      obtain ⟨a, ha, hx⟩ := Option.bind_eq_some_iff.1 hx
      obtain ⟨b, hb, hc⟩ := Option.bind_eq_some_iff.1 hc
      exact ⟨key, a, b, ha, hb, path, x, c, hx, hc⟩
  · rintro ⟨key, a, b, ha, hb, path, x, c, hx, hc⟩
    exact ⟨key :: path, x, c, Option.bind_eq_some_iff.2 ⟨a, ha, hx⟩,
      Option.bind_eq_some_iff.2 ⟨b, hb, hc⟩⟩

end Shape

/-- Whether some path leads to a scalar in the fields and to a structure in the tree. -/
def Fields.clashes : Fields → ShapeTree → Bool
  | nil, _ => false
  | leaf key _ rest, t => ((t.get? key).bind Shape.tree?).isSome || rest.clashes t
  | node key children rest, t =>
    ((t.get? key).bind Shape.tree?).any children.clashes || rest.clashes t

theorem Fields.clashes_iff {fields : Fields} (h : fields.Sorted) (t : ShapeTree) :
    fields.clashes t ↔
      ∃ key a b, (key, a) ∈ fields.entries h ∧ t.get? key = some b ∧ a.Clash b := by
  induction fields generalizing t with
  | nil => simp [clashes, entries]
  | leaf key tag rest ih =>
    simp only [clashes, entries, Bool.or_eq_true, ih h.afterLeaf, List.mem_cons, Prod.mk.injEq,
      or_and_right, exists_or, and_assoc, exists_and_left, exists_eq_left]
    refine or_congr_left ?_
    cases t.get? key with
    | none => simp
    | some b => cases b <;> simp [Shape.tree?, Shape.scalar_clash_iff]
  | node key children rest ihc ih =>
    simp only [clashes, entries, Bool.or_eq_true, ih h.afterNode, List.mem_cons, Prod.mk.injEq,
      or_and_right, exists_or, and_assoc, exists_and_left, exists_eq_left]
    refine or_congr_left ?_
    cases t.get? key with
    | none => simp
    | some b =>
      cases b with
      | scalar y => simp [Shape.tree?, Shape.not_tree_clash_scalar]
      | tree d =>
        simp only [Option.bind_some, Shape.tree?, Option.any_some, ihc h.children,
          Option.some.injEq, exists_eq_left', Shape.tree_clash_tree_iff,
          ← ShapeTree.mem_entries_iff]
        rfl

namespace ShapeTree

variable {s t u : ShapeTree}

/-- Some path leads to a scalar in the first tree and to a structure in the second. -/
def Clash (s t : ShapeTree) : Prop := (Shape.tree s).Clash (.tree t)

instance : Decidable (s.Clash t) := decidable_of_iff (s.fields.clashes t) <| by
  rw [Fields.clashes_iff s.sorted, Clash, Shape.tree_clash_tree_iff]
  simp only [← mem_entries_iff]
  rfl

/-- What clashes with trees that were widened together clashes with one of them. -/
theorem clash_of_clash_sup (h : u.Clash (s ⊔ t)) : u.Clash s ∨ u.Clash t := by
  obtain ⟨path, x, c, hx, hc⟩ := h
  rw [Shape.at?_sup] at hc
  obtain hs | ht | ⟨a, -, hs, -, -⟩ := Shape.unify?_eq_tree hc
  · exact .inl ⟨path, x, c, hx, hs⟩
  · exact .inr ⟨path, x, c, hx, ht⟩
  · exact .inl ⟨path, x, a, hx, hs⟩

/-- **A greater tree has greater leaves**, unless a structure has taken the place of a scalar. -/
theorem leaves_mono_of_not_clash (h : s ≤ t) (hclash : ¬ s.Clash t) : s.leaves ≤ t.leaves := by
  refine leaves_le_iff.2 fun path name x hx => ?_
  obtain ⟨b, hb, hxb⟩ := Shape.at?_mono h hx
  cases b with
  | tree c => exact absurd ⟨path ++ [name], x, c, hx, hb⟩ hclash
  | scalar y =>
    refine le_trans ?_ (singleton_le_leaves hb)
    exact singleton_le_iff.2 ⟨.scalar y, by simp [singleton], hxb⟩

end ShapeTree

end TrafficSchema
