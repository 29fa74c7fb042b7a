import TrafficSchema.Proofs.Json.Record
import TrafficSchema.Proofs.Json.Text
import TrafficSchema.Proofs.Shape.Height
import TrafficSchema.Shape.Notation

/-!
# Reading written shapes

The tree of a written shape is decoded as that shape, if as much nesting is allowed as the shape
has (`Shape.ofNode_toJson`). A decoded shape never has more nesting than is allowed
(`Shape.depth_le_of_ofNode`), in whatever way it was spelled.

Decoding the members of an object into a tree is decoding them into the dictionary of its fields
(`ShapeTree.ofMembers_eq`), so both are cases of what is known of dictionaries.
-/

namespace TrafficSchema

open Json

/-! ## Tags -/

theorem Tag.toJson_eq_string {tag : Tag} (h : tag ≠ none) :
    tag.toJson = .string tag.persistedName := by
  cases tag <;> first | rfl | exact absurd rfl h

theorem Tag.numberFree_toJson (tag : Tag) : tag.toJson.numberFree := by
  cases tag <;> rfl

theorem Tag.depth_toJson (tag : Tag) : tag.toJson.depth = 0 := by
  cases tag <;> simp [toJson, Value.depth]

theorem Tag.ofNode_toJson (tag : Tag) (n : Nat) :
    Shape.ofNode n tag.toJson.toNode = .ok (.scalar tag) := by
  by_cases h : tag = none
  · subst h
    simp [toJson, Value.toNode, Shape.ofNode]
  · rw [toJson_eq_string h, Value.toNode, Shape.ofNode, ofName_persistedName]

/-! ## Trees as objects -/

theorem Fields.toMembers_eq_map (fields : Fields) (h : fields.Sorted) :
    fields.toMembers = (fields.entries h).map fun e => (e.1, e.2.toJson) := by
  induction fields with
  | nil => rfl
  | leaf key tag rest ih =>
    rw [toMembers, ih h.afterLeaf]
    rfl
  | node key children rest _ ih =>
    rw [toMembers, ih h.afterNode]
    rfl

namespace ShapeTree

theorem toJson_eq_ofDict (t : ShapeTree) : t.toJson = Value.ofDict Shape.toJson t.dict := by
  rw [toJson, Fields.toMembers_eq_map t.fields t.sorted]
  rfl

/-- A tree is nested one level deeper than its fields. -/
theorem depth_toJson_le_iff {t : ShapeTree} {n : Nat} :
    t.toJson.depth ≤ n + 1 ↔ t.dict.Forall fun a => a.toJson.depth ≤ n := by
  rw [toJson_eq_ofDict, Value.depth_ofDict_le_iff]

theorem depth_toJson_pos (t : ShapeTree) : 0 < t.toJson.depth := by
  rw [toJson, Value.depth]
  exact Nat.succ_pos _

theorem depth_toJson_empty_le (n : Nat) : (∅ : ShapeTree).toJson.depth ≤ n + 1 :=
  depth_toJson_le_iff.2 (Dict.forall_empty _)

/-- Members are decoded into a tree as into the dictionary of its fields. -/
theorem ofMembers_eq (depth : Nat) (members : List Member) (t : ShapeTree) :
    ofMembers depth members t =
      (Node.membersToDict (Shape.ofNode depth) members t.dict).map ofDict := by
  induction members generalizing t with
  | nil => rw [ofMembers, Node.membersToDict, Except.map, ofDict_dict]
  | cons member members ih =>
    obtain ⟨key, node⟩ := member
    cases key with
    | none => rw [ofMembers]; rfl
    | some key =>
      rw [ofMembers, Node.membersToDict]
      cases Shape.ofNode depth node with
      | error e => rfl
      | ok a =>
        change ofMembers depth members (t.insert key a) =
          (Node.membersToDict (Shape.ofNode depth) members (t.dict.insert key a)).map ofDict
        rw [ih, insert, dict_ofDict]

/-- An object with the fields of a tree is decoded as that tree, if the fields are. -/
theorem ofMembers_entries {depth : Nat} {t : ShapeTree}
    (h : t.dict.Forall fun a => Shape.ofNode depth a.toJson.toNode = .ok a) :
    ofMembers depth (t.dict.entries.map fun e => (some e.1, e.2.toJson.toNode)) ∅ = .ok t := by
  have hdict : Node.membersToDict (Shape.ofNode depth)
      (t.dict.entries.map fun e => (some e.1, e.2.toJson.toNode)) ∅ = .ok t.dict := by
    rw [Node.membersToDict_entries h, Dict.map_id]
  have hempty : (∅ : ShapeTree).dict = ∅ := rfl
  rw [ofMembers_eq, hempty, hdict, Except.map, ofDict_dict]

/-- What holds of the decoded fields holds of all fields of a decoded tree. -/
theorem forall_of_ofMembers {p : Shape → Prop} {depth : Nat}
    (h : ∀ node a, Shape.ofNode depth node = .ok a → p a) {members : List Member} {t : ShapeTree}
    (ht : ofMembers depth members ∅ = .ok t) : t.dict.Forall p := by
  rw [ofMembers_eq] at ht
  cases hdict : Node.membersToDict (Shape.ofNode depth) members (∅ : ShapeTree).dict with
  | error e =>
    rw [hdict] at ht
    cases ht
  | ok d =>
    rw [hdict] at ht
    cases ht
    rw [dict_ofDict]
    exact Node.membersToDict_forall h (Dict.forall_empty p) hdict

end ShapeTree

/-! ## Shapes -/

namespace Shape

theorem numberFree_toJson (a : Shape) : a.toJson.numberFree := by
  induction a using Shape.induction with
  | scalar tag => exact tag.numberFree_toJson
  | tree t ih =>
    rw [toJson, ShapeTree.toJson_eq_ofDict]
    exact Value.numberFree_ofDict ih

/-- A written shape is nested as deep as the shape is high. -/
theorem depth_toJson (a : Shape) : a.toJson.depth = a.height := by
  induction a using Shape.induction with
  | scalar tag => exact tag.depth_toJson
  | tree t ih =>
    refine eq_of_forall_ge_iff fun n => ?_
    cases n with
    | zero =>
      exact iff_of_false (Nat.not_le.2 t.depth_toJson_pos) (Nat.not_le.2 t.height_pos)
    | succ n =>
      rw [toJson, ShapeTree.depth_toJson_le_iff, height, ShapeTree.height_le_iff]
      refine forall₃_congr fun key a ha => ?_
      simp only [ih key a ha]

/-- **The tree of a written shape is decoded as that shape.** -/
theorem ofNode_toJson (a : Shape) (n : Nat) (h : a.toJson.depth ≤ n) :
    ofNode n a.toJson.toNode = .ok a := by
  induction a using Shape.induction generalizing n with
  | scalar tag => exact tag.ofNode_toJson n
  | tree t ih =>
    cases n with
    | zero => exact absurd h (Nat.not_le.2 t.depth_toJson_pos)
    | succ n =>
      rw [toJson, ShapeTree.depth_toJson_le_iff] at h
      rw [toJson, ShapeTree.toJson_eq_ofDict, Value.toNode_ofDict, ofNode,
        ShapeTree.ofMembers_entries fun key a ha => ih key a ha n (h key a ha)]
      rfl

/-- What is decoded is a scalar, or a tree of what was decoded with less nesting allowed. -/
theorem of_ofNode_eq_ok {n : Nat} {node : Node} {a : Shape} (h : ofNode n node = .ok a) :
    (∃ tag, a = .scalar tag) ∨
      ∃ m t, n = m + 1 ∧ a = .tree t ∧ t.dict.Forall fun b => ∃ node, ofNode m node = .ok b := by
  unfold ofNode at h
  split at h
  case h_1 =>
    cases h
    exact .inl ⟨_, rfl⟩
  case h_4 =>
    cases h
    exact .inl ⟨_, rfl⟩
  case h_5 items =>
    cases n with
    | zero => cases h
    | succ m =>
      cases items with
      | nil =>
        cases h
        exact .inr ⟨m, ∅, rfl, rfl, Dict.forall_empty _⟩
      | cons item items => cases h
  case h_6 members =>
    cases n with
    | zero => cases h
    | succ m =>
      obtain ⟨t, ht, h⟩ := bind_eq_ok_iff.1 h
      cases h
      exact .inr ⟨m, t, rfl, rfl, ShapeTree.forall_of_ofMembers (fun node _ h => ⟨node, h⟩) ht⟩
  all_goals cases h

/-- **A decoded shape is not nested deeper than is allowed.** -/
theorem depth_le_of_ofNode {n : Nat} {node : Node} {a : Shape} (h : ofNode n node = .ok a) :
    a.toJson.depth ≤ n := by
  induction n generalizing node a with
  | zero =>
    obtain ⟨tag, rfl⟩ | ⟨m, t, hm, -⟩ := of_ofNode_eq_ok h
    · exact Nat.le_of_eq tag.depth_toJson
    · cases hm
  | succ n ih =>
    obtain ⟨tag, rfl⟩ | ⟨m, t, hm, rfl, hfields⟩ := of_ofNode_eq_ok h
    · exact tag.depth_toJson ▸ Nat.zero_le _
    · cases hm
      refine ShapeTree.depth_toJson_le_iff.2 fun key b hb => ?_
      obtain ⟨node, hnode⟩ := hfields key b hb
      exact ih hnode

end Shape

namespace ShapeTree

theorem depth_toJson (t : ShapeTree) : t.toJson.depth = t.height := Shape.depth_toJson (.tree t)

theorem numberFree_toJson (t : ShapeTree) : t.toJson.numberFree := Shape.numberFree_toJson (.tree t)

/-- **The tree of a written tree is decoded as that tree.** -/
theorem ofNode_toJson {t : ShapeTree} {n : Nat} (h : t.toJson.depth ≤ n) :
    ofNode n t.toJson.toNode = .ok t := by
  cases n with
  | zero => exact absurd h (Nat.not_le.2 t.depth_toJson_pos)
  | succ n =>
    rw [depth_toJson_le_iff] at h
    rw [toJson_eq_ofDict, Value.toNode_ofDict, ofNode]
    exact ofMembers_entries fun key a ha => Shape.ofNode_toJson a n (h key a ha)

/-- **A decoded tree is not nested deeper than is allowed.** -/
theorem depth_le_of_ofNode {n : Nat} {node : Node} {t : ShapeTree} (h : ofNode n node = .ok t) :
    t.toJson.depth ≤ n := by
  unfold ofNode at h
  split at h
  · split at h
    · cases h
    · refine depth_toJson_le_iff.2 (forall_of_ofMembers (fun node a ha => ?_) h)
      exact Shape.depth_le_of_ofNode ha
  · cases h

end ShapeTree

end TrafficSchema
