import TrafficSchema.Proofs.Shape.Override
import TrafficSchema.Proofs.Shape.Paths

/-!
# Corrections of a tree

A tree is corrected place by place. A tag that says anything, in the corrections, ends every path
that leads through it (`Shape.CutsOff`), and the result has nothing there. At all other places the
result depends only on what the two trees have at the same place, in the way in which single fields
are overridden (`ShapeTree.at?_merge_override`).

Corrections of one tree are put together by correcting the first with the second ones. This comes to
the same as applying both in turn, unless the second ones have a structure again where the first
ones put a tag in the place of a structure (`Shape.Reinstates`, `Shape.unify_override_assoc`).
-/

namespace TrafficSchema

namespace Shape

/-! ## Places that are cut off -/

/-- On the way to a place, and not only there, the shape has a tag that says anything. -/
def CutsOff (a : Shape) (path : List String) : Prop :=
  ∃ start x, start <+: path ∧ start ≠ path ∧ x ≠ Tag.none ∧ a.at? start = some (scalar x)

variable {a b c : Shape} {s t u : ShapeTree} {key : String} {path : List String} {x y : Tag}

theorem not_cutsOff_nil (a : Shape) : ¬ a.CutsOff [] := by
  rintro ⟨start, x, hstart, hne, -, -⟩
  exact hne (List.prefix_nil.1 hstart)

theorem scalar_cutsOff_cons_iff : (scalar x).CutsOff (key :: path) ↔ x ≠ .none := by
  constructor
  · rintro ⟨start, y, -, -, hy, hat⟩
    cases start with
    | nil =>
      cases hat
      exact hy
    | cons k start => cases hat
  · intro hx
    exact ⟨[], x, List.nil_prefix, nofun, hx, rfl⟩

theorem tree_cutsOff_cons_iff :
    (tree t).CutsOff (key :: path) ↔ ∃ b, t.get? key = some b ∧ b.CutsOff path := by
  constructor
  · rintro ⟨start, x, hstart, hne, hx, hat⟩
    cases start with
    | nil => cases hat
    | cons k start =>
      obtain ⟨rfl, hrest⟩ := List.cons_prefix_cons.1 hstart
      obtain ⟨b, hb, hat⟩ := Option.bind_eq_some_iff.1 hat
      exact ⟨b, hb, start, x, hrest, fun heq => hne (heq ▸ rfl), hx, hat⟩
  · rintro ⟨b, hb, start, x, hstart, hne, hx, hat⟩
    refine ⟨key :: start, x, List.cons_prefix_cons.2 ⟨rfl, hstart⟩, ?_, hx, ?_⟩
    · simpa only [ne_eq, List.cons.injEq, true_and] using hne
    · rw [at?_tree_cons, hb, Option.bind_some, hat]

/-! ## Place by place -/

/-- **Nothing is left at a place that the corrections cut off.** -/
theorem bind_at?_of_cutsOff (h : b.CutsOff path) (x : Option Shape) :
    ((unify? .override x (some b)).bind fun a => a.at? path) = none := by
  induction path generalizing x b with
  | nil => exact absurd h (not_cutsOff_nil b)
  | cons key path ih =>
    cases b with
    | scalar y =>
      have hy : y ≠ .none := scalar_cutsOff_cons_iff.1 h
      cases x with
      | none => rfl
      | some a => simp [unify?, unify_override_scalar a hy]
    | tree t =>
      obtain ⟨b, hb, h⟩ := tree_cutsOff_cons_iff.1 h
      have hnone : (tree t).at? (key :: path) = none := by
        rw [at?_tree_cons, hb]
        exact ih h none
      rcases x with _ | _ | s
      · exact hnone
      · exact hnone
      · change (tree (s.merge .override t)).at? (key :: path) = none
        rw [at?_tree_cons, ShapeTree.get?_merge, hb]
        exact ih h (s.get? key)

/-- **All other places are overridden one by one.** -/
theorem bind_at?_unify?_override {x y : Option Shape} (h : ∀ b, y = some b → ¬ b.CutsOff path) :
    ((unify? .override x y).bind fun a => a.at? path) =
      unify? .override (x.bind fun a => a.at? path) (y.bind fun a => a.at? path) := by
  induction path generalizing x y with
  | nil => simp only [at?_nil, Option.bind_fun_some]
  | cons key path ih =>
    rcases x with _ | a
    · rfl
    rcases y with _ | b
    · rw [Option.bind_none, unify?_none_right, unify?_none_right]
    have hb := h b rfl
    cases b with
    | scalar y =>
      -- only a tag that says nothing is no obstacle, and it changes nothing either
      obtain rfl : y = .none := by
        by_contra hy
        exact hb (scalar_cutsOff_cons_iff.2 hy)
      rw [unify?, unify_override_none, Option.bind_some, Option.bind_some, at?_scalar_cons,
        unify?_none_right]
    | tree t =>
      cases a with
      | scalar x => rfl
      | tree s =>
        have hfield : ∀ b, t.get? key = some b → ¬ b.CutsOff path := fun b hget hcuts =>
          hb (tree_cutsOff_cons_iff.2 ⟨b, hget, hcuts⟩)
        rw [Option.bind_some, Option.bind_some, at?_tree_cons, at?_tree_cons, ← ih hfield,
          ← ShapeTree.get?_merge]
        rfl

/-! ## Corrections after corrections -/

/-- At some place the first shape has a structure, the second a tag that says anything, and the
third a structure again. -/
def Reinstates (a b c : Shape) : Prop :=
  ∃ path s y u, a.at? path = some (tree s) ∧ y ≠ Tag.none ∧ b.at? path = some (scalar y) ∧
    c.at? path = some (tree u)

theorem reinstates_tag (hy : y ≠ .none) : Reinstates (tree s) (scalar y) (tree u) :=
  ⟨[], s, y, u, rfl, hy, rfl, rfl⟩

theorem Reinstates.of_get? (ha : s.get? key = some a) (hb : t.get? key = some b)
    (hc : u.get? key = some c) (h : Reinstates a b c) :
    Reinstates (tree s) (tree t) (tree u) := by
  obtain ⟨path, s', y, u', hs, hy, ht, hu⟩ := h
  refine ⟨key :: path, s', y, u', ?_, hy, ?_, ?_⟩
  · rw [at?_tree_cons, ha, Option.bind_some, hs]
  · rw [at?_tree_cons, hb, Option.bind_some, ht]
  · rw [at?_tree_cons, hc, Option.bind_some, hu]

/-- **Corrections can be put together**, unless the second ones reinstate a structure. -/
theorem unify_override_assoc (h : ¬ Reinstates a b c) :
    (a.unify .override b).unify .override c = a.unify .override (b.unify .override c) := by
  induction c using Shape.induction generalizing a b with
  | scalar z =>
    by_cases hz : z = .none
    · rw [hz, unify_override_none, unify_override_none]
    · rw [unify_override_scalar _ hz, unify_override_scalar _ hz, unify_override_scalar _ hz]
  | tree u ih =>
    cases b with
    | scalar y =>
      by_cases hy : y = .none
      · rw [hy, unify_override_none, unify_override_scalar_tree]
      · rw [unify_override_scalar _ hy, unify_override_scalar_tree]
        cases a with
        | scalar x => rfl
        | tree s => exact absurd (reinstates_tag hy) h
    | tree t =>
      cases a with
      | scalar x => rfl
      | tree s =>
        simp only [unify_override_tree]
        congr 1
        ext key : 1
        simp only [ShapeTree.get?_merge]
        cases ha : s.get? key with
        | none => simp only [unify?_none_left]
        | some a =>
          cases hb : t.get? key with
          | none => simp only [unify?_none_left, unify?_none_right]
          | some b =>
            cases hc : u.get? key with
            | none => simp only [unify?_none_right]
            | some c => exact congrArg some (ih key c hc fun hr => h (hr.of_get? ha hb hc))

end Shape

namespace ShapeTree

/-- **A tree is corrected place by place.** Where the corrections have a tag that says anything on
the way to a place, nothing is left there. At any other place what they say counts: a structure is
put in, into the structure that is there if there is one; a tag takes the place of what is there;
and what was there stays if they say nothing, or only that nothing was seen. -/
theorem at?_merge_override (s t : ShapeTree) (path : List String) :
    ((Shape.tree t).CutsOff path → (Shape.tree (s.merge .override t)).at? path = none) ∧
    (¬ (Shape.tree t).CutsOff path → (Shape.tree (s.merge .override t)).at? path =
      match (Shape.tree s).at? path, (Shape.tree t).at? path with
      | x, none => x
      | none, some (.scalar .none) => some (.scalar .none)
      | some a, some (.scalar .none) => some a
      | _, some (.scalar y) => some (.scalar y)
      | some (.tree c), some (.tree d) => some (.tree (c.merge .override d))
      | _, some (.tree d) => some (.tree d)) := by
  refine ⟨fun h => Shape.bind_at?_of_cutsOff h (some (.tree s)), fun h => ?_⟩
  have hplace : (Shape.tree (s.merge .override t)).at? path =
      Shape.unify? .override ((Shape.tree s).at? path) ((Shape.tree t).at? path) :=
    Shape.bind_at?_unify?_override (x := some (.tree s)) (y := some (.tree t)) <| by
      rintro b ⟨⟩
      exact h
  rw [hplace]
  generalize (Shape.tree s).at? path = x
  generalize (Shape.tree t).at? path = y
  rcases y with _ | y | d
  · rcases x with _ | a <;> rfl
  · -- a tag counts unless it is the one that says nothing
    rcases x with _ | a <;> cases y <;> rfl
  · rcases x with _ | _ | c <;> rfl

/-- An item with an id. -/
def nestedItem : ShapeTree := singleton "item" (.tree (singleton "id" (.scalar .int)))

/-- An item that is plain text. -/
def plainItem : ShapeTree := singleton "item" (.scalar .str)

theorem at?_merge_override_item :
    (Shape.tree plainItem).CutsOff ["item", "id"] ∧
      (Shape.tree (nestedItem.merge .override plainItem)).at? ["item", "id"] = none ∧
      ¬ (Shape.tree plainItem).CutsOff ["item"] ∧
      (Shape.tree (nestedItem.merge .override plainItem)).at? ["item"] = some (.scalar .str) := by
  have hcuts : (Shape.tree plainItem).CutsOff ["item", "id"] :=
    ⟨["item"], .str, by decide, by decide, by decide, rfl⟩
  have hopen : ¬ (Shape.tree plainItem).CutsOff ["item"] := by
    rw [Shape.tree_cutsOff_cons_iff]
    rintro ⟨b, -, hb⟩
    exact Shape.not_cutsOff_nil b hb
  exact ⟨hcuts, (at?_merge_override nestedItem plainItem _).1 hcuts, hopen,
    (at?_merge_override nestedItem plainItem _).2 hopen⟩

end ShapeTree

end TrafficSchema
