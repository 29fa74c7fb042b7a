import TrafficSchema.Proofs.Exchange.Sources
import TrafficSchema.Proofs.Shape.References
import TrafficSchema.Proofs.Xml.Tree

/-!
# Decoded flows without references

References stand for child elements that were taken out of a response, and are only made when its
entities are extracted. A decoded flow still has the whole response, and there is no reference in
any of its shapes (`Exchange.referenceFree_of_decode`).
-/

namespace TrafficSchema

open ShapeTree (ReferenceFree)

/-! ## Queries -/

namespace Query

theorem isReference_valueTag (value : Option (List Char)) :
    (valueTag value).isReference = false := by
  cases value with
  | none => rfl
  | some value => exact Tag.isReference_infer _

theorem referenceFree_parse (query : String) : (parse query).ReferenceFree := by
  have hfold (l : List (List Char)) (t : ShapeTree) (ht : t.ReferenceFree) :
      (l.foldl observePair t).ReferenceFree := by
    induction l generalizing t with
    | nil => exact ht
    | cons pair l ih => exact ih _ (ht.observe _ (.scalar (isReference_valueTag _)))
  exact hfold _ ∅ .empty

end Query

/-! ## XML documents -/

namespace Xml

namespace Tree

theorem referenceFree_tags : ∀ attributes : List (String × String),
    (tags attributes).ReferenceFree
  | [] => .empty
  | (name, value) :: rest =>
    (ReferenceFree.singleton name (.scalar (Tag.isReference_infer value))).sup
      (referenceFree_tags rest)

theorem referenceFree_attributeShape (attributes : List (String × String)) :
    (attributeShape attributes).ReferenceFree := by
  unfold attributeShape
  split
  · exact .empty
  · exact .singleton attributesKey (referenceFree_tags attributes)

mutual

/-- The shape of an element has no references. -/
theorem referenceFree_node : ∀ tree : Tree, tree.node.ReferenceFree
  | element _ attributes children => by
    rw [node]
    exact (referenceFree_attributeShape attributes).sup (referenceFree_childShape children)

theorem referenceFree_childShape : ∀ trees : List Tree, (childShape trees).ReferenceFree
  | [] => .empty
  | tree :: rest => by
    rw [childShape]
    exact (ReferenceFree.singleton tree.tag (referenceFree_node tree)).sup
      (referenceFree_childShape rest)

end

end Tree

theorem referenceFree_of_shapeOf {limit : Nat} {body : ByteArray} {t : ShapeTree}
    (h : shapeOf limit body = .ok t) : t.ReferenceFree := by
  obtain ⟨text, root, -, -, -, rfl⟩ := shapeOf_eq_ok_iff.1 h
  exact .singleton root.tag root.referenceFree_node

end Xml

/-! ## JSON values -/

mutual

/-- The shape of a JSON value has no references. -/
theorem Shape.referenceFree_infer : ∀ value : Json.Value, (Shape.infer value).ReferenceFree
  | .null | .bool _ => .scalar rfl
  | .number (.integer n) => .scalar (Tag.isReference_infer (toString n))
  | .number (.real _) => .scalar rfl
  | .string s => .scalar (Tag.isReference_infer s)
  | .array items => by
    rw [Shape.infer]
    exact Shape.referenceFree_inferItems items (.scalar rfl)
  | .object members => by
    rw [Shape.infer]
    exact ShapeTree.referenceFree_inferMembers members .empty

theorem Shape.referenceFree_inferItems : ∀ (items : List Json.Value) {a : Shape},
    a.ReferenceFree → (Shape.inferItems items a).ReferenceFree
  | [], _, ha => ha
  | item :: rest, a, ha => by
    rw [Shape.inferItems]
    exact Shape.referenceFree_inferItems rest (ha.unify .widen (Shape.referenceFree_infer item))

theorem ShapeTree.referenceFree_inferMembers : ∀ (members : List (String × Json.Value))
    {t : ShapeTree}, t.ReferenceFree → (ShapeTree.inferMembers members t).ReferenceFree
  | [], _, ht => ht
  | (key, value) :: rest, t, ht => by
    rw [ShapeTree.inferMembers]
    exact ShapeTree.referenceFree_inferMembers rest
      (ht.insert key (Shape.referenceFree_infer value))

end

/-! ## Flows -/

/-- **There are no references in a decoded flow.** -/
theorem Exchange.referenceFree_of_decode {config : Config} {e : Exchange} {f : Flow}
    (h : e.decode config = .ok f) :
    f.queryParameters.ReferenceFree ∧ f.contentStructure.ReferenceFree ∧
      f.contentParameters.ReferenceFree ∧ f.responseStructure.ReferenceFree := by
  obtain ⟨hquery, hcontent, hparameters, hresponse⟩ := sources_of_decode h
  have hstructure : f.contentStructure.ReferenceFree := by
    obtain hcontent | hcontent | hcontent := hcontent
    · rw [hcontent]
      exact .empty
    · obtain ⟨-, value, -, -, hshape⟩ := exists_value_of_jsonBody? hcontent
      have hfree := Shape.referenceFree_infer value
      rw [hshape] at hfree
      exact hfree
    · exact Xml.referenceFree_of_shapeOf hcontent
  refine ⟨?_, hstructure, ?_, ?_⟩
  · obtain hquery | ⟨query, hquery⟩ := hquery <;> rw [hquery]
    · exact .empty
    · exact Query.referenceFree_parse query
  · rw [hparameters]
    exact hstructure.leaves
  · obtain hresponse | ⟨bytes, -, hresponse⟩ := hresponse
    · rw [hresponse]
      exact .empty
    · exact Xml.referenceFree_of_shapeOf hresponse

end TrafficSchema
