import TrafficSchema.Proofs.Shape.Widening
import TrafficSchema.Shape.Infer

/-!
# Arrays and their parts

The shape of an array is the join of the shapes of its parts, which are its items, or the parts of
those that are arrays again (`Shape.infer_array_eq_foldl`, `Shape.isLUB_infer_array`). So it does not
matter in which order the items of an array come, how often, and how they are grouped into arrays of
their own, wherever in a value the array is (`Json.Value.Regrouped.infer_eq`).

An object has a structure with its own keys (`ShapeTree.contains_inferMembers`), and under each of
them the shape of the last member with this key (`ShapeTree.get?_inferMembers`).
-/

namespace TrafficSchema

namespace Json.Value

/-! ## Parts -/

mutual

/-- What an array is made of when the arrays in it are opened. Any other value is made of itself. -/
def parts : Value → List Value
  | .array items => itemsParts items
  | value => [value]

/-- What the items of an array are made of. -/
def itemsParts : List Value → List Value
  | [] => []
  | item :: rest => item.parts ++ itemsParts rest

end

mutual

theorem ne_array_of_mem_parts : ∀ (value : Value) {part : Value}, part ∈ value.parts →
    ∀ items, part ≠ .array items
  | .array items, _, h => ne_array_of_mem_itemsParts items (by rwa [parts] at h)
  | .null, _, h | .bool _, _, h | .number _, _, h | .string _, _, h | .object _, _, h => by
    simp_all [parts]

/-- No array is left when arrays are opened. -/
theorem ne_array_of_mem_itemsParts : ∀ (items : List Value) {part : Value},
    part ∈ itemsParts items → ∀ inner, part ≠ .array inner
  | item :: rest, part, h => by
    rw [itemsParts, List.mem_append] at h
    exact h.elim (ne_array_of_mem_parts item) (ne_array_of_mem_itemsParts rest)

end

/-! ## Regrouping -/

/-- Two values differ in nothing but the order of items in arrays, how often they are there, and how
they are grouped into arrays of their own, at any depth. -/
inductive Regrouped : Value → Value → Prop
  | refl (v : Value) : Regrouped v v
  | symm {v w : Value} (h : Regrouped v w) : Regrouped w v
  | trans {u v w : Value} (huv : Regrouped u v) (hvw : Regrouped v w) : Regrouped u w
  /-- The items are put in another order. -/
  | reorder {items items' : List Value} (h : items.Perm items') :
      Regrouped (.array items) (.array items')
  /-- An item is there once more. -/
  | again {item : Value} {items : List Value} (h : item ∈ items) :
      Regrouped (.array items) (.array (item :: items))
  /-- Some items are put into an array of their own. -/
  | group (before inner after : List Value) :
      Regrouped (.array (before ++ inner ++ after)) (.array (before ++ .array inner :: after))
  /-- An item is regrouped. -/
  | item (before after : List Value) {v w : Value} (h : Regrouped v w) :
      Regrouped (.array (before ++ v :: after)) (.array (before ++ w :: after))
  /-- A member of an object is regrouped. -/
  | member (before after : List (String × Value)) (key : String) {v w : Value}
      (h : Regrouped v w) :
      Regrouped (.object (before ++ (key, v) :: after)) (.object (before ++ (key, w) :: after))

end Json.Value

open Json

/-! ## Arrays -/

namespace Shape

theorem inferItems_eq_foldl (items : List Value) (a : Shape) :
    inferItems items a = (items.map infer).foldl (unify .widen) a := by
  induction items generalizing a with
  | nil => rfl
  | cons item rest ih => exact ih (a.unify .widen (infer item))

/-- The shape of an array is the least one above those of its items. -/
theorem infer_array_le_iff {items : List Value} {b : Shape} :
    infer (.array items) ≤ b ↔ ∀ item ∈ items, infer item ≤ b := by
  have hfold : infer (.array items) = (items.map infer).foldl (· ⊔ ·) ⊥ := by
    rw [infer]
    exact inferItems_eq_foldl items (.scalar .none)
  rw [hfold, foldl_sup_le_iff, List.forall_mem_map]
  exact and_iff_right bot_le

theorem infer_array_congr {items items' : List Value}
    (h : ∀ b, (∀ item ∈ items, infer item ≤ b) ↔ ∀ item ∈ items', infer item ≤ b) :
    infer (.array items) = infer (.array items') :=
  eq_of_forall_ge_iff fun b => by rw [infer_array_le_iff, infer_array_le_iff, h]

mutual

theorem infer_le_iff_parts : ∀ (value : Value) {b : Shape},
    infer value ≤ b ↔ ∀ part ∈ value.parts, infer part ≤ b
  | .array items, b => by
    rw [infer_array_le_iff, Value.parts]
    exact forall_infer_le_iff_itemsParts items
  | .null, _ | .bool _, _ | .number _, _ | .string _, _ | .object _, _ => by
    simp [Value.parts]

/-- What is above the shapes of all items is above those of their parts. -/
theorem forall_infer_le_iff_itemsParts : ∀ (items : List Value) {b : Shape},
    (∀ item ∈ items, infer item ≤ b) ↔ ∀ part ∈ Value.itemsParts items, infer part ≤ b
  | [], _ => by simp [Value.itemsParts]
  | item :: rest, b => by
    rw [List.forall_mem_cons, Value.itemsParts, List.forall_mem_append, infer_le_iff_parts item,
      forall_infer_le_iff_itemsParts rest]

end

/-- **The shape of an array is the join of the shapes of its parts.** -/
theorem isLUB_infer_array (items : List Value) :
    IsLUB {a | ∃ part ∈ Value.itemsParts items, infer part = a} (infer (.array items)) := by
  rw [isLUB_iff_le_iff]
  intro b
  rw [infer_array_le_iff, forall_infer_le_iff_itemsParts, upperBounds]
  simp

/-- The parts of an array may be put into an array in place of its items. -/
theorem infer_array_itemsParts (items : List Value) :
    infer (.array (Value.itemsParts items)) = infer (.array items) :=
  infer_array_congr fun _ => (forall_infer_le_iff_itemsParts items).symm

/-- The shapes of the parts are widened together, from `none` on. -/
theorem infer_array_eq_foldl (items : List Value) : infer (.array items) =
    ((Value.itemsParts items).map infer).foldl (unify .widen) (.scalar .none) := by
  rw [← infer_array_itemsParts, infer, inferItems_eq_foldl]

end Shape

/-! ## Objects -/

/-- What a key has is the shape of the last member with this key. -/
theorem ShapeTree.get?_inferMembers (members : List (String × Value)) (t : ShapeTree)
    (key : String) : (ShapeTree.inferMembers members t).get? key =
      ((members.reverse.find? (·.1 = key)).map fun m => Shape.infer m.2).or (t.get? key) := by
  induction members generalizing t with
  | nil => rfl
  | cons m rest ih =>
    obtain ⟨k, value⟩ := m
    rw [ShapeTree.inferMembers, ih, get?_insert, List.reverse_cons, List.find?_append]
    cases rest.reverse.find? (·.1 = key) with
    | some m => rfl
    | none => by_cases hk : key = k <;> simp [hk, eq_comm]

theorem ShapeTree.contains_inferMembers {members : List (String × Value)} {key : String} :
    (ShapeTree.inferMembers members ∅).contains key ↔ key ∈ members.map (·.1) := by
  have hget := ShapeTree.get?_inferMembers members ∅ key
  change ((ShapeTree.inferMembers members ∅).get? key).isSome ↔ _
  rw [hget]
  simp

theorem ShapeTree.inferMembers_append (before after : List (String × Value)) (t : ShapeTree) :
    ShapeTree.inferMembers (before ++ after) t =
      ShapeTree.inferMembers after (ShapeTree.inferMembers before t) := by
  induction before generalizing t with
  | nil => rfl
  | cons m rest ih => exact ih (t.insert m.1 (Shape.infer m.2))

/-! ## Regrouping -/

/-- **Regrouping does not change the shape of a value.** -/
theorem Json.Value.Regrouped.infer_eq {v w : Value} (h : v.Regrouped w) :
    Shape.infer v = Shape.infer w := by
  induction h with
  | refl v => rfl
  | symm h ih => exact ih.symm
  | trans huv hvw ihuv ihvw => exact ihuv.trans ihvw
  | reorder h => exact Shape.infer_array_congr fun b => by simp only [h.mem_iff]
  | again h =>
    refine Shape.infer_array_congr fun b => ?_
    rw [List.forall_mem_cons]
    exact ⟨fun hall => ⟨hall _ h, hall⟩, And.right⟩
  | group before inner after =>
    refine Shape.infer_array_congr fun b => ?_
    simp only [List.forall_mem_append, List.forall_mem_cons, Shape.infer_array_le_iff, and_assoc]
  | item before after h ih =>
    refine Shape.infer_array_congr fun b => ?_
    simp only [List.forall_mem_append, List.forall_mem_cons, ih]
  | member before after key h ih =>
    simp only [Shape.infer, ShapeTree.inferMembers_append, ShapeTree.inferMembers, ih]

/-- **The shape of a value** does not depend on the order of items in arrays, on how often they are
there, and on how they are grouped, at any depth. For an array, the shapes of its parts, none of
which is an array, are widened together from `none` on, and this gives their join. An object has a
structure with just the keys of its members. -/
theorem Shape.infer_eq_of_regrouped :
    (∀ items : List Value, (∀ part ∈ Value.itemsParts items, ∀ inner, part ≠ .array inner) ∧
      Shape.infer (.array items) =
        ((Value.itemsParts items).map Shape.infer).foldl (Shape.unify .widen) (.scalar .none) ∧
      IsLUB {a | ∃ part ∈ Value.itemsParts items, Shape.infer part = a}
        (Shape.infer (.array items))) ∧
    (∀ v w : Value, v.Regrouped w → Shape.infer v = Shape.infer w) ∧
    ∀ members : List (String × Value), ∃ t, Shape.infer (.object members) = .tree t ∧
      ∀ key, t.contains key ↔ key ∈ members.map (·.1) := by
  refine ⟨fun items => ⟨fun _ => Value.ne_array_of_mem_itemsParts items,
    Shape.infer_array_eq_foldl items, Shape.isLUB_infer_array items⟩,
    fun _ _ => Value.Regrouped.infer_eq, fun members => ⟨ShapeTree.inferMembers members ∅, ?_⟩⟩
  exact ⟨by rw [Shape.infer], fun _ => ShapeTree.contains_inferMembers⟩

/-- The items of `[1, ["x", 1]]` are regrouped within an object. -/
theorem Shape.infer_eq_of_regrouped_ids :
    let one := Value.number (.integer 1)
    let grouped := Value.object [("ids", .array [one, .array [.string "x", one]])]
    let flat := Value.object [("ids", .array [.string "x", one])]
    grouped.Regrouped flat ∧ Shape.infer grouped = Shape.infer flat := by
  intro one grouped flat
  have hgroup : (Value.array [one, .array [.string "x", one]]).Regrouped
      (.array [one, .string "x", one]) :=
    .symm (.group [one] [.string "x", one] [])
  have hagain : (Value.array [one, .string "x", one]).Regrouped (.array [.string "x", one]) :=
    .symm (.again (by simp))
  have hregrouped : grouped.Regrouped flat := .member [] [] "ids" (hgroup.trans hagain)
  exact ⟨hregrouped, Shape.infer_eq_of_regrouped.2.1 _ _ hregrouped⟩

end TrafficSchema
