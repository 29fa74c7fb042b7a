import TrafficSchema.Flow.Notation
import TrafficSchema.Proofs.Shape.Notation

/-!
# Reading written flows

A written flow has all its fields, in the order in which an array gives them. So it is decoded
field by field, and as that flow but for the reference to an exchange, which is not written
(`Flow.ofNode_toJson`).

The nesting of a flow is that of its four trees (`Flow.TreesWithin`). A decoded flow is within the
bound on nesting and refers to no exchange (`Flow.Within`), since that holds of the defaults and
every field keeps it (`Flow.within_of_ofNode`).
-/

namespace TrafficSchema

open Json

/-! ## Fields -/

theorem ContentType.orDefault_toJson (c : ContentType) (n : Nat) :
    Node.orDefault (ofNode n) c.toJson.toNode = .ok c := by
  cases c <;> simp [toJson, name, Value.toNode, Node.orDefault, ofNode, ofName?]

theorem ShapeTree.orDefault_toJson {t : ShapeTree} {n : Nat} (h : t.toJson.depth ≤ n) :
    Node.orDefault (ofNode n) t.toJson.toNode = .ok t := by
  rw [← ofNode_toJson h, toJson_eq_ofDict, Node.orDefault_ofDict]

namespace Flow

/-- The trees of a flow are not nested deeper than `n`. -/
def TreesWithin (n : Nat) (f : Flow) : Prop :=
  f.queryParameters.toJson.depth ≤ n ∧ f.contentStructure.toJson.depth ≤ n ∧
    f.contentParameters.toJson.depth ≤ n ∧ f.responseStructure.toJson.depth ≤ n

/-- A flow as it can be read: not nested deeper than `n`, and without a reference to an
exchange. -/
def Within (n : Nat) (f : Flow) : Prop := f.TreesWithin n ∧ f.capture = none

theorem depth_toJson_le_iff {n : Nat} {f : Flow} :
    f.toJson.depth ≤ n + 1 ↔ f.TreesWithin n := by
  rw [toJson, Value.depth, Nat.add_le_add_iff_right, Value.membersDepth_le_iff]
  simp only [List.forall_mem_cons, ContentType.toJson, Value.depth]
  constructor
  · rintro ⟨hcp, hcs, -, -, -, hq, -, hr, -⟩
    exact ⟨hq, hcs, hcp, hr⟩
  · rintro ⟨hq, hcs, hcp, hr⟩
    simp [hq, hcs, hcp, hr]

theorem numberFree_toJson (f : Flow) : f.toJson.numberFree := by
  rw [toJson, Value.numberFree, Value.membersNumberFree_iff]
  simp [ContentType.toJson, Value.numberFree, ShapeTree.numberFree_toJson]

theorem Within.contract_eq {n : Nat} {f : Flow} (h : f.Within n) : f.contract = f := by
  rw [contract, ← h.2]

/-! ## Reading what was written -/

theorem nodup_jsonFields : (jsonFields.map (·.name)).Nodup := by
  simp [jsonFields, jsonField]

/-- **The tree of a written flow is decoded as that flow**, but for the reference to an
exchange. -/
theorem ofNode_toJson {f : Flow} {n : Nat} (h : f.TreesWithin n) :
    ofNode (n + 1) f.toJson.toNode = .ok f.contract := by
  obtain ⟨hq, hcs, hcp, hr⟩ := h
  have hnodes : f.toJson.toNode = .object (List.zipWith
      (fun field node => (some field.name, node)) jsonFields
      [f.contentParameters.toJson.toNode, f.contentStructure.toJson.toNode,
        f.contentType.toJson.toNode, .string (some f.endpoint), .string (some f.method),
        f.queryParameters.toJson.toNode, .bool f.responseGzipped,
        f.responseStructure.toJson.toNode, .string (some f.service)]) := by
    simp [toJson, Value.toNode, Value.membersToNodes, jsonFields, jsonField]
  rw [ofNode, hnodes, Node.toRecord_zipWith nodup_jsonFields {} n (Nat.le_refl _)]
  simp only [jsonFields, jsonField, Node.itemsToRecord, ContentType.orDefault_toJson,
    ShapeTree.orDefault_toJson hq, ShapeTree.orDefault_toJson hcs, ShapeTree.orDefault_toJson hcp,
    ShapeTree.orDefault_toJson hr]
  rfl

/-! ## Decoded flows -/

theorem jsonField_invariant {α : Type} [Inhabited α] {p : Flow → Prop} {q : α → Prop}
    {name : String} {decoder : Nat → Node → Decoded α} {set : Flow → α → Flow} {n : Nat}
    (hdefault : q default) (hdecoder : ∀ node a, decoder n node = .ok a → q a)
    (hset : ∀ f a, p f → q a → p (set f a)) (node : Node) (f g : Flow)
    (h : (jsonField name decoder set).decode n node f = .ok g) (hf : p f) : p g := by
  obtain ⟨a, ha, h⟩ := bind_eq_ok_iff.1 h
  cases h
  obtain rfl | ha := Node.orDefault_eq_ok ha
  · exact hset f _ hf hdefault
  · exact hset f a hf (hdecoder node a ha)

theorem jsonFields_invariant {n : Nat} {field : RecordField Flow} (hfield : field ∈ jsonFields)
    (node : Node) (f g : Flow) (h : field.decode (n + 1) node f = .ok g)
    (hf : f.Within (n + 1)) : g.Within (n + 1) := by
  have htree {name : String} {set : Flow → ShapeTree → Flow}
      (hset : ∀ f t, f.Within (n + 1) → t.toJson.depth ≤ n + 1 → (set f t).Within (n + 1))
      (node : Node) (f g : Flow) :
      (jsonField name ShapeTree.ofNode set).decode (n + 1) node f = .ok g →
        f.Within (n + 1) → g.Within (n + 1) :=
    jsonField_invariant (ShapeTree.depth_toJson_empty_le n)
      (fun _ _ => ShapeTree.depth_le_of_ofNode) hset node f g
  -- the other fields do not touch what is claimed
  have hother {α : Type} [Inhabited α] {name : String} {decoder : Nat → Node → Decoded α}
      {set : Flow → α → Flow} (hset : ∀ f a, f.Within (n + 1) → (set f a).Within (n + 1))
      (node : Node) (f g : Flow) :
      (jsonField name decoder set).decode (n + 1) node f = .ok g →
        f.Within (n + 1) → g.Within (n + 1) :=
    jsonField_invariant (q := fun _ => True) trivial (fun _ _ _ => trivial)
      (fun f a hf _ => hset f a hf) node f g
  have hkeep {α : Type} (f : Flow) (_ : α) (hf : f.Within (n + 1)) : f.Within (n + 1) := hf
  have hall : ∀ field ∈ jsonFields, ∀ node f g,
      field.decode (n + 1) node f = .ok g → f.Within (n + 1) → g.Within (n + 1) := by
    simp only [jsonFields, List.forall_mem_cons]
    refine ⟨htree ?_, htree ?_, hother hkeep, hother hkeep, hother hkeep, htree ?_, hother hkeep,
      htree ?_, hother hkeep, nofun⟩
    · exact fun f t ⟨⟨hq, hcs, _, hr⟩, hc⟩ ht => ⟨⟨hq, hcs, ht, hr⟩, hc⟩
    · exact fun f t ⟨⟨hq, _, hcp, hr⟩, hc⟩ ht => ⟨⟨hq, ht, hcp, hr⟩, hc⟩
    · exact fun f t ⟨⟨_, hcs, hcp, hr⟩, hc⟩ ht => ⟨⟨ht, hcs, hcp, hr⟩, hc⟩
    · exact fun f t ⟨⟨hq, hcs, hcp, _⟩, hc⟩ ht => ⟨⟨hq, hcs, hcp, ht⟩, hc⟩
  exact hall field hfield node f g h hf

/-- A decoded flow is not nested deeper than is allowed, and refers to no exchange. -/
theorem within_of_ofNode {n : Nat} {node : Node} {f : Flow} (h : ofNode (n + 2) node = .ok f) :
    f.Within (n + 1) := by
  have hempty := ShapeTree.depth_toJson_empty_le n
  have hinitial : Within (n + 1) {} := ⟨⟨hempty, hempty, hempty, hempty⟩, rfl⟩
  exact Node.toRecord_invariant hinitial (fun field hfield => jsonFields_invariant hfield) h

end Flow

end TrafficSchema
