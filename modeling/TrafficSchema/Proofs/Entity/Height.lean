import TrafficSchema.Proofs.Entity.Discovery
import TrafficSchema.Proofs.Shape.Height

/-!
# The height of what is extracted

An extraction takes trees away from a response, so what it leaves over is not higher than the
response (`ShapeTree.height_residual_extractEntities_le`). The properties of an entity are the
attributes of an element together with references, which are scalars. The element lies in the
response and the attributes in the element, so the properties are lower by two levels
(`ShapeTree.height_properties_le`).
-/

namespace TrafficSchema

namespace ShapeTree

/-! ## What is left over -/

theorem height_residualAt_le (place : Place) (t : ShapeTree) :
    (t.residualAt place).height ≤ t.height := by
  induction t using ShapeTree.induction generalizing place with
  | step t ih =>
    refine height_le_of_trees (n := t.fields.height) fun key c hc => ?_
    obtain ⟨-, -, hc⟩ | ⟨-, d, hd, rfl⟩ := of_get?_residualAt_eq_tree hc
    · exact Nat.le_of_lt_succ (height_lt_of_get? hc)
    · exact Nat.le_trans (ih key d hd _) (Nat.le_of_lt_succ (height_lt_of_get? hd))

theorem height_residual_extractEntities_le (t : ShapeTree) :
    (extractEntities t).residual.height ≤ t.height := t.height_residualAt_le .outermost

/-! ## What is found -/

/-- References do not make properties higher than the attributes. -/
theorem height_entityProperties_le {t attributes : ShapeTree} {n : Nat}
    (h : attributes.height ≤ n + 1) : (t.entityProperties attributes).height ≤ n + 1 := by
  unfold entityProperties
  induction t.keys.filter (· ≠ attributesKey) generalizing attributes with
  | nil => exact h
  | cons child rest ih => exact ih (height_observe_scalar_le h child (.reference child))

/-- The properties of an entity are lower than the tree it is found in by two levels. -/
theorem height_of_mem_discoveries {t : ShapeTree} {place : Place} {d : String × ShapeTree}
    (h : d ∈ t.discoveries place) : d.2.height + 2 ≤ t.height := by
  induction t using ShapeTree.induction generalizing place with
  | step t ih =>
    obtain ⟨key, c, hc, -, h⟩ := mem_discoveries_iff.1 h
    have hlt := height_lt_of_get? hc
    obtain ⟨attributes, hattributes, rfl⟩ | h := h
    · have hlow := height_lt_of_get? (get?_of_entityAttributes?_eq_some hattributes)
      have hproperties : (c.entityProperties attributes).height ≤ attributes.height :=
        height_entityProperties_le (n := attributes.fields.height) (Nat.le_refl _)
      simp only
      omega
    · have := ih key c hc h
      omega

/-- **The properties of the entities in a response are lower by two levels.** -/
theorem height_properties_le {t : ShapeTree} {n : Nat} (h : t.height ≤ n + 2) :
    (extractEntities t).entities.Forall fun e => e.properties.height ≤ n := by
  intro name e he
  refine of_get?_extractEntities (P := fun e => e.properties.height ≤ n) (fun d hd _ => ?_)
    (fun a b ha hb => height_merge_le .widen ha hb) he
  have hlow := height_of_mem_discoveries hd
  change d.2.height ≤ n
  omega

end ShapeTree

end TrafficSchema
