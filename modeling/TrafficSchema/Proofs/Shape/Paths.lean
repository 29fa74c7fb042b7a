import TrafficSchema.Proofs.Shape.Widening

/-!
# Paths

A path of field names leads to a place in a shape (`Shape.at?`), and widening works place by place
(`Shape.bind_at?_unify?`). At each place a tree has a scalar, a structure or nothing, and this is
all that there is to a tree (`ShapeTree.ext_kindAt?`).
-/

namespace TrafficSchema

namespace Shape

/-- What a path of field names leads to. -/
def at? : Shape → List String → Option Shape
  | a, [] => some a
  | scalar _, _ :: _ => none
  | tree t, key :: path => (t.get? key).bind fun a => a.at? path

@[simp] theorem at?_nil (a : Shape) : a.at? [] = some a := by
  cases a <;> rfl

@[simp] theorem at?_scalar_cons (x : Tag) (key : String) (path : List String) :
    (scalar x).at? (key :: path) = none := rfl

@[simp] theorem at?_tree_cons (t : ShapeTree) (key : String) (path : List String) :
    (tree t).at? (key :: path) = (t.get? key).bind fun a => a.at? path := rfl

theorem at?_append (a : Shape) (path rest : List String) :
    a.at? (path ++ rest) = (a.at? path).bind fun b => b.at? rest := by
  induction path generalizing a with
  | nil => rw [List.nil_append, at?_nil, Option.bind_some]
  | cons key path ih =>
    cases a with
    | scalar x => rfl
    | tree t => simp only [List.cons_append, at?_tree_cons, ih, Option.bind_assoc]

/-- The last step of a path is a field of a structure. -/
theorem at?_concat_eq_some_iff {a b : Shape} {path : List String} {key : String} :
    a.at? (path ++ [key]) = some b ↔
      ∃ c, a.at? path = some (tree c) ∧ c.get? key = some b := by
  rw [at?_append, Option.bind_eq_some_iff]
  constructor
  · rintro ⟨d, hd, hb⟩
    cases d with
    | scalar x => cases hb
    | tree c => exact ⟨c, hd, by simpa using hb⟩
  · rintro ⟨c, hc, hb⟩
    exact ⟨.tree c, hc, by simpa using hb⟩

/-- A structure is reached from structures only. -/
theorem exists_eq_tree_of_at? {a : Shape} {n : ShapeTree} {path : List String}
    (h : a.at? path = some (tree n)) : ∃ c, a = tree c := by
  cases a with
  | tree c => exact ⟨c, rfl⟩
  | scalar x => cases path <;> cases h

/-- A path with two fields goes through a structure that has the second one. -/
theorem exists_get?_of_at?_cons {a b : Shape} {path : List String} {key : String}
    (hpath : path ≠ []) (h : a.at? (key :: path) = some b) :
    ∃ t c first d, a = tree t ∧ t.get? key = some (tree c) ∧ c.get? first = some d := by
  obtain ⟨first, rest, rfl⟩ := List.exists_cons_of_ne_nil hpath
  cases a with
  | scalar x => cases h
  | tree t =>
    obtain ⟨c, hc, h⟩ := Option.bind_eq_some_iff.1 h
    cases c with
    | scalar x => cases h
    | tree c =>
      obtain ⟨d, hd, -⟩ := Option.bind_eq_some_iff.1 h
      exact ⟨t, c, first, d, rfl, hc, hd⟩

theorem unify?_none_left (mode : MergeMode) (y : Option Shape) : unify? mode none y = y := rfl

theorem unify?_none_right (mode : MergeMode) (x : Option Shape) : unify? mode x none = x := by
  cases x <;> rfl

theorem unify?_eq_none_iff {mode : MergeMode} {x y : Option Shape} :
    unify? mode x y = none ↔ x = none ∧ y = none := by
  cases x <;> cases y <;> simp [unify?]

theorem unify?_some_some (a b : Shape) : unify? .widen (some a) (some b) = some (a ⊔ b) := rfl

/-- What is widened has something that is not greater on one side. -/
theorem exists_le_of_unify?_eq_some {x y : Option Shape} {a : Shape}
    (h : unify? .widen x y = some a) : ∃ b ≤ a, x = some b ∨ y = some b := by
  rcases x with _ | b
  · exact ⟨a, le_rfl, .inr h⟩
  rcases y with _ | c
  · exact ⟨a, le_rfl, .inl h⟩
  rw [unify?_some_some, Option.some.injEq] at h
  rw [← h]
  exact ⟨b, le_sup_left, .inl rfl⟩

/-- **Widening works place by place**: a path leads to what it leads to in either shape, or to
both widened. -/
theorem bind_at?_unify? (x y : Option Shape) (path : List String) :
    ((unify? .widen x y).bind fun a => a.at? path) =
      unify? .widen (x.bind fun a => a.at? path) (y.bind fun a => a.at? path) := by
  induction path generalizing x y with
  | nil => simp only [at?_nil, Option.bind_fun_some]
  | cons key path ih =>
    rcases x with _ | a
    · rfl
    rcases y with _ | b
    · rw [Option.bind_none, unify?_none_right, unify?_none_right]
    -- a scalar leads nowhere, so two shapes only meet there if both are structures
    cases a with
    | scalar x =>
      cases b with
      | scalar y => simp [unify?]
      | tree t => rfl
    | tree s =>
      cases b with
      | scalar y =>
        rw [Option.bind_some, Option.bind_some, at?_scalar_cons, unify?_none_right, unify?,
          unify_tree_scalar, Option.bind_some]
      | tree t =>
        rw [Option.bind_some, Option.bind_some, at?_tree_cons, at?_tree_cons, ← ih,
          ← ShapeTree.get?_merge]
        rfl

theorem at?_sup (s t : ShapeTree) (path : List String) :
    (tree (s ⊔ t)).at? path = unify? .widen ((tree s).at? path) ((tree t).at? path) :=
  bind_at?_unify? (some (tree s)) (some (tree t)) path

/-- A scalar that was widened is that of one side, or those of both sides joined. -/
theorem unify?_eq_scalar {x y : Option Shape} {z : Tag}
    (h : unify? .widen x y = some (scalar z)) :
    x = some (scalar z) ∨ y = some (scalar z) ∨
      ∃ a b, x = some (scalar a) ∧ y = some (scalar b) ∧ z = a.join b := by
  rcases x with _ | a
  · exact .inr (.inl h)
  rcases y with _ | b
  · exact .inl h
  cases a with
  | tree s => cases b <;> simp [unify?] at h
  | scalar x =>
    cases b with
    | tree t => simp [unify?] at h
    | scalar y =>
      simp only [unify?, unify_scalar_scalar, Option.some.injEq, scalar.injEq] at h
      exact .inr (.inr ⟨x, y, rfl, rfl, h.symm⟩)

/-- A greater tree has every place, with a shape that is not lower. -/
theorem at?_mono {s t : ShapeTree} (h : s ≤ t) {path : List String} {a : Shape}
    (ha : (tree s).at? path = some a) : ∃ b, (tree t).at? path = some b ∧ a ≤ b := by
  have hsup := at?_sup s t path
  rw [sup_eq_right.2 h, ha] at hsup
  cases hb : (tree t).at? path with
  | none =>
    rw [hb] at hsup
    cases hsup
  | some b =>
    rw [hb, unify?_some_some, Option.some.injEq] at hsup
    exact ⟨b, rfl, right_eq_sup.1 hsup⟩

end Shape

namespace ShapeTree

theorem contains_iff {t : ShapeTree} {key : String} : t.contains key ↔ ∃ a, t.get? key = some a :=
  Option.isSome_iff_exists

/-! ## What stands at a place -/

/-- What stands at a place, without what is in it: the tag of a scalar, or `none` for a structure,
if there is anything. -/
def kindAt? (t : ShapeTree) (path : List String) : Option (Option Tag) :=
  ((Shape.tree t).at? path).map Shape.tag?

/-- **Trees with the same at every place are equal.** -/
theorem ext_kindAt? {s t : ShapeTree} (h : ∀ path, s.kindAt? path = t.kindAt? path) : s = t := by
  induction s using ShapeTree.induction generalizing t with
  | step s ih =>
    ext key : 1
    have hkey : (s.get? key).map Shape.tag? = (t.get? key).map Shape.tag? := by
      simpa [kindAt?] using h [key]
    cases hs : s.get? key with
    | none =>
      rw [hs, Option.map_none, eq_comm, Option.map_eq_none_iff] at hkey
      exact hkey.symm
    | some a =>
      rw [hs, Option.map_some, eq_comm, Option.map_eq_some_iff] at hkey
      obtain ⟨b, ht, hab⟩ := hkey
      rw [ht]
      cases a with
      | scalar x =>
        cases b with
        | tree d => cases hab
        | scalar y =>
          cases hab
          rfl
      | tree c =>
        cases b with
        | scalar y => cases hab
        | tree d =>
          rw [ih key c hs fun path => ?_]
          simpa [kindAt?, hs, ht] using h (key :: path)

end ShapeTree

end TrafficSchema
