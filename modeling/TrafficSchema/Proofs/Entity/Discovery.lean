import TrafficSchema.Proofs.Entity.Collect
import TrafficSchema.Proofs.Entity.Residual
import TrafficSchema.Proofs.Shape.References

/-!
# Entities and the elements they are found in

The entities of a response are all discoveries in it, those of one name joined
(`ShapeTree.entities_extractEntities`). Each discovery is made in an element that is left over at
the same place, without its attributes (`ShapeTree.exists_at?_of_mem_discoveries`). The properties
that are references stand for children of this element, under their tags
(`ShapeTree.reference_of_entityProperties`), if there are no references in the response.
-/

namespace TrafficSchema

/-! ## All discoveries -/

/-- A discovery as an entity. -/
def Entity.ofDiscovery (d : String × ShapeTree) : Entity := ⟨d.1, d.2⟩

theorem Fields.recordEntity_eq (entities : Dict Entity) (d : String × ShapeTree) :
    recordEntity entities d.1 d.2 = Entity.record entities (.ofDiscovery d) := by
  have hname : (Entity.ofDiscovery d).name = d.1 := rfl
  refine Dict.ext_get? fun key => ?_
  rw [recordEntity, Entity.get?_record, Dict.get?_upsert, hname]
  by_cases hkey : key = d.1
  · rw [if_pos hkey, if_pos hkey, hkey]
    cases entities.get? d.1 <;> rfl
  · rw [if_neg hkey, if_neg hkey]

namespace ShapeTree

/-- **The entities of a response are what is discovered in it.** -/
theorem entities_extractEntities (t : ShapeTree) : (extractEntities t).entities =
    Entity.recordAll ((t.discoveries .outermost).map .ofDiscovery) := by
  rw [extractEntities, Fields.collectEntities_eq_foldl, Entity.recordAll, List.foldl_map]
  simp only [Fields.recordEntity_eq]
  rfl

/-- What holds of all discoveries of one name, and is kept when entities are joined, holds of the
entity with this name. -/
theorem of_get?_extractEntities {P : Entity → Prop} {t : ShapeTree} {name : String}
    (hfound : ∀ d ∈ t.discoveries .outermost, d.1 = name → P (.ofDiscovery d))
    (hjoin : ∀ a b, P a → P b → P (a.join .widen b)) {e : Entity}
    (he : (extractEntities t).entities.get? name = some e) : P e := by
  rw [entities_extractEntities, Entity.get?_recordAll] at he
  refine reduce?_invariant hjoin (fun a ha => ?_) he
  obtain ⟨ha, hname⟩ := List.mem_filter.1 ha
  obtain ⟨d, hd, rfl⟩ := List.mem_map.1 ha
  exact hfound d hd (of_decide_eq_true hname)

/-! ## Where discoveries are made -/

theorem get?_of_entityAttributes?_eq_some {t attributes : ShapeTree}
    (h : t.entityAttributes? = some attributes) :
    t.get? attributesKey = some (.tree attributes) := by
  obtain ⟨h, -⟩ := Option.filter_eq_some_iff.1 h
  obtain ⟨a, ha, htree⟩ := Option.bind_eq_some_iff.1 h
  cases a with
  | scalar tag => cases htree
  | tree c =>
    cases htree
    exact ha

/-- **A discovery is made in an element that is left over** without the attributes. -/
theorem exists_at?_of_mem_discoveries {t : ShapeTree} {place : Place} {d : String × ShapeTree}
    (hd : d ∈ t.discoveries place) : ∃ path c attributes,
      (Shape.tree t).at? (path ++ [d.1]) = some (.tree c) ∧
      (Shape.tree (t.residualAt place)).at? (path ++ [d.1]) =
        some (.tree (c.residualAt (.inside c))) ∧
      c.entityAttributes? = some attributes ∧ d.2 = c.entityProperties attributes := by
  induction t using ShapeTree.induction generalizing place with
  | step t ih =>
    obtain ⟨key, c, hc, hvisited, hd⟩ := mem_discoveries_iff.1 hd
    have hleft := get?_residualAt_of_tree hvisited hc
    obtain ⟨attributes, hattributes, rfl⟩ | hd := hd
    · exact ⟨[], c, attributes, by simp [hc], by simp [hleft], hattributes, rfl⟩
    · obtain ⟨path, c', attributes, hin, hout, hattributes, hproperties⟩ := ih key c hc hd
      refine ⟨key :: path, c', attributes, ?_, ?_, hattributes, hproperties⟩
      · simpa [hc] using hin
      · simpa [hleft] using hout

/-- Children are left over in their element. -/
theorem contains_residualAt {c : ShapeTree} {place : Place} {key : String}
    (h : c.contains key) (hkey : key ≠ attributesKey) : (c.residualAt place).contains key := by
  obtain ⟨a, ha⟩ : ∃ a, c.get? key = some a := Option.isSome_iff_exists.1 h
  change ((c.residualAt place).get? key).isSome
  have hvisited : ¬ place.skips key := fun hskips => hkey hskips.1
  rw [get?_residualAt, ha, Option.bind_some]
  cases a with
  | scalar tag => rfl
  | tree d =>
    rw [Shape.residualAt, if_neg hvisited]
    rfl

/-! ## References -/

/-- Observing a reference to a child adds no other reference under its tag. -/
theorem reference_of_get?_observe {t : ShapeTree} {child key target : String}
    (h : (t.observe child (.scalar (.reference child))).get? key =
      some (.scalar (.reference target))) :
    t.get? key = some (.scalar (.reference target)) ∨ key = child ∧ target = child := by
  rw [get?_observe] at h
  split at h
  · rename_i hkey
    obtain h | h | ⟨x, y, hx, hy, h⟩ := Shape.unify?_eq_scalar h
    · rw [hkey]
      exact .inl h
    · cases h
      exact .inr ⟨hkey, rfl⟩
    · cases hy
      obtain hjoin | hjoin := x.join_eq_or (.reference child)
      · rw [hkey, hx, h, hjoin]
        exact .inl rfl
      · cases h.trans hjoin
        exact .inr ⟨hkey, rfl⟩
  · exact .inl h

/-- **References stand for children, under their tags**: those among the properties of an entity, if
none is among its attributes. -/
theorem reference_of_entityProperties {c attributes : ShapeTree} (h : attributes.ReferenceFree)
    {key target : String}
    (hkey : (c.entityProperties attributes).get? key = some (.scalar (.reference target))) :
    target = key ∧ key ≠ attributesKey ∧ c.contains key := by
  have hfold (children : List String) (t : ShapeTree)
      (ht : t.get? key = some (.scalar (.reference target)) →
        target = key ∧ key ∈ c.keys.filter (· ≠ attributesKey))
      (hchildren : ∀ child ∈ children, child ∈ c.keys.filter (· ≠ attributesKey))
      (hget : (children.foldl (fun t child => t.observe child (.scalar (.reference child))) t).get?
        key = some (.scalar (.reference target))) :
      target = key ∧ key ∈ c.keys.filter (· ≠ attributesKey) := by
    induction children generalizing t with
    | nil => exact ht hget
    | cons child children ih =>
      obtain ⟨hchild, hchildren⟩ := List.forall_mem_cons.1 hchildren
      refine ih _ (fun hget => ?_) hchildren hget
      obtain hget | ⟨rfl, rfl⟩ := reference_of_get?_observe hget
      · exact ht hget
      · exact ⟨rfl, hchild⟩
  have hnone (hget : attributes.get? key = some (.scalar (.reference target))) :
      target = key ∧ key ∈ c.keys.filter (· ≠ attributesKey) := by
    cases h.isReference hget
  obtain ⟨htarget, hmem⟩ := hfold _ attributes hnone (fun _ hchild => hchild) hkey
  obtain ⟨hkeys, hne⟩ := List.mem_filter.1 hmem
  exact ⟨htarget, of_decide_eq_true hne, Dict.mem_keys_iff.1 hkeys⟩

end ShapeTree

end TrafficSchema
