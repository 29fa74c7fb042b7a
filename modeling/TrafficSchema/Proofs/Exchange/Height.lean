import TrafficSchema.Proofs.Except
import TrafficSchema.Proofs.Exchange.Sources
import TrafficSchema.Proofs.Json.Text
import TrafficSchema.Proofs.Shape.Height

/-!
# The height of what is decoded

The parameters of a query are not nested. The elements of an XML document may be nested up to a
limit; its shape has one more tree around them, and one more in each element for its attributes
(`Xml.height_le_of_shapeOf`). A JSON value is limited by its own nesting only
(`Shape.height_infer_le`).

A decoded exchange is limited accordingly (`Exchange.height_le_of_decode`): the limit of the
configuration bounds the response, but not a request body in JSON.
-/

namespace TrafficSchema

/-! ## Queries -/

theorem Query.height_parse_le (query : String) : (parse query).height ≤ 1 := by
  have hfold (l : List (List Char)) (t : ShapeTree) (ht : t.height ≤ 1) :
      (l.foldl observePair t).height ≤ 1 := by
    induction l generalizing t with
    | nil => exact ht
    | cons pair l ih => exact ih _ (ShapeTree.height_observe_scalar_le ht _ _)
  exact hfold _ ∅ (ShapeTree.height_empty_le 0)

/-! ## XML documents -/

namespace Xml

namespace Builder

theorem height_le_of_attributeTags {tag : String} {attributes : List Attribute}
    {t u : ShapeTree} (ht : t.height ≤ 1) (h : attributeTags tag attributes t = .ok u) :
    u.height ≤ 1 := by
  induction attributes generalizing t with
  | nil =>
    cases h
    exact ht
  | cons first rest ih =>
    cases first with
    | pair name value => exact ih (ShapeTree.height_observe_scalar_le ht name _) h
    | badValue => cases h
    | malformed => cases h

theorem height_nodeOf_le {attributes : ShapeTree} (h : attributes.height ≤ 1) :
    (nodeOf attributes).height ≤ 2 := by
  unfold nodeOf
  split
  · exact ShapeTree.height_empty_le 1
  · exact ShapeTree.height_singleton_le attributesKey h

/-- The shapes of open elements leave room for the elements around them. -/
def StackWithin (limit : Nat) : List Element → Prop
  | [] => True
  | e :: stack => e.node.height + stack.length ≤ limit + 1 ∧ StackWithin limit stack

/-- The shapes of the open elements, and of the root element, leave room for the elements around
them. -/
structure Within (limit : Nat) (b : Builder) : Prop where
  stack : StackWithin limit b.stack
  root : ∀ e, b.root = some e → e.node.height ≤ limit + 1

theorem within_start (limit : Nat) : Within limit start := ⟨trivial, nofun⟩

/-- An element that is opened has attributes only. -/
theorem height_le_of_element {limit : Nat} {b : Builder} {tag : String}
    {attributes : List Attribute} {e : Element} (h : b.element limit tag attributes = .ok e) :
    e.node.height + b.stack.length ≤ limit + 1 := by
  unfold element at h
  split at h
  · cases h
  · split at h
    · cases h
    · rename_i hlimit
      obtain ⟨t, ht, h⟩ := bind_eq_ok_iff.1 h
      cases h
      have hnode := height_nodeOf_le (height_le_of_attributeTags (ShapeTree.height_empty_le 0) ht)
      simp only
      omega

/-- A closed element is one level lower than the one around it may be. -/
theorem within_close {limit : Nat} {e : Element} {stack : List Element} {root : Option Element}
    (he : e.node.height + stack.length ≤ limit + 1) (hstack : StackWithin limit stack)
    (hroot : ∀ e, root = some e → e.node.height ≤ limit + 1) :
    Within limit (close e stack root) := by
  cases stack with
  | nil =>
    refine ⟨trivial, fun e' he' => ?_⟩
    cases he'
    exact he
  | cons parent stack =>
    obtain ⟨hparent, hstack⟩ := hstack
    refine ⟨⟨?_, hstack⟩, hroot⟩
    rw [List.length_cons] at he
    -- the parent may have `n + 1` levels, and the element has at most `n` of them
    obtain ⟨n, hn⟩ : ∃ n, limit + 1 - stack.length = n + 1 := ⟨limit - stack.length, by omega⟩
    have hobserve : (parent.node.observe e.tag (.tree e.node)).height ≤ n + 1 :=
      ShapeTree.height_observe_le (by omega) e.tag (by change e.node.height ≤ n; omega)
    simp only
    omega

theorem within_step {limit : Nat} {b b' : Builder} {event : Event} (hb : Within limit b)
    (h : step limit b event = .ok b') : Within limit b' := by
  cases event with
  | opened tag attributes =>
    obtain ⟨e, he, h⟩ := bind_eq_ok_iff.1 h
    cases h
    exact ⟨⟨height_le_of_element he, hb.stack⟩, hb.root⟩
  | emptied tag attributes =>
    obtain ⟨e, he, h⟩ := bind_eq_ok_iff.1 h
    cases h
    exact within_close (height_le_of_element he) hb.stack hb.root
  | closed =>
    obtain ⟨stack, root⟩ := b
    cases stack with
    | nil => cases h
    | cons e stack =>
      cases h
      exact within_close hb.stack.1 hb.stack.2 hb.root
  | text =>
    rw [step] at h
    split at h
    · cases h
    · cases h
      exact hb
  | skipped =>
    cases h
    exact hb
  | fault => cases h

theorem height_le_of_finish {limit : Nat} {b : Builder} {t : ShapeTree} (hb : Within limit b)
    (h : b.finish = .ok t) : t.height ≤ limit + 2 := by
  obtain ⟨stack, root⟩ := b
  cases stack with
  | cons e stack => cases h
  | nil =>
    cases root with
    | none => cases h
    | some e =>
      cases h
      exact ShapeTree.height_singleton_le e.tag (hb.root e rfl)

end Builder

/-- **The shape of a document is bounded by the limit on its elements.** -/
theorem height_le_of_shapeOf {limit : Nat} {body : ByteArray} {t : ShapeTree}
    (h : shapeOf limit body = .ok t) : t.height ≤ limit + 2 := by
  unfold shapeOf at h
  split at h
  · cases h
  · obtain ⟨b, hb, h⟩ := bind_eq_ok_iff.1 h
    have hwithin : b.Within limit :=
      foldlM_invariant (fun _ _ _ _ => Builder.within_step) (Builder.within_start limit) hb
    exact Builder.height_le_of_finish hwithin h

end Xml

/-! ## JSON values -/

mutual

/-- **The shape of a JSON value is not nested deeper than the value.** -/
theorem Shape.height_infer_le : ∀ value : Json.Value, (Shape.infer value).height ≤ value.depth
  | .null | .bool _ | .number _ | .string _ => Nat.zero_le _
  | .array items => by
    rw [Shape.infer, Json.Value.depth]
    exact Nat.le_succ_of_le (Shape.height_inferItems_le items (Nat.zero_le _) (Nat.le_refl _))
  | .object members => by
    rw [Shape.infer, Json.Value.depth]
    exact ShapeTree.height_inferMembers_le members (Nat.le_add_left 1 _) (Nat.le_refl _)

theorem Shape.height_inferItems_le : ∀ (items : List Json.Value) {a : Shape} {n : Nat},
    a.height ≤ n → Json.Value.itemsDepth items ≤ n → (Shape.inferItems items a).height ≤ n
  | [], _, _, ha, _ => ha
  | item :: rest, a, n, ha, h => by
    rw [Json.Value.itemsDepth, Nat.max_le] at h
    have hitem := Nat.le_trans (Shape.height_infer_le item) h.1
    exact Shape.height_inferItems_le rest (Shape.height_unify_le .widen ha hitem) h.2

theorem ShapeTree.height_inferMembers_le : ∀ (members : List (String × Json.Value))
    {t : ShapeTree} {n : Nat}, t.height ≤ n + 1 → Json.Value.membersDepth members ≤ n →
      (ShapeTree.inferMembers members t).height ≤ n + 1
  | [], _, _, ht, _ => ht
  | (key, value) :: rest, t, n, ht, h => by
    rw [Json.Value.membersDepth, Nat.max_le] at h
    have hvalue := Nat.le_trans (Shape.height_infer_le value) h.1
    exact ShapeTree.height_inferMembers_le rest (ShapeTree.height_insert_le ht key hvalue) h.2

end

/-! ## Exchanges -/

namespace Exchange

/-- The request body is not nested deeper than `n`, if it is a JSON value. -/
def JsonWithin (n : Nat) (e : Exchange) : Prop :=
  ∀ text value, String.fromUTF8? e.requestBody = some text → Json.Value.ofText text = .ok value →
    value.depth ≤ n

theorem JsonWithin.height_le {n : Nat} {e : Exchange} (h : e.JsonWithin n) {t : ShapeTree}
    (ht : jsonBody? e.requestBody = some t) : t.height ≤ n := by
  obtain ⟨text, value, htext, hvalue, hshape⟩ := exists_value_of_jsonBody? ht
  have hheight := Nat.le_trans (Shape.height_infer_le value) (h text value htext hvalue)
  rw [hshape] at hheight
  exact hheight

/-- **A decoded exchange is bounded by the limit on its elements**, apart from a request body in
JSON. -/
theorem height_le_of_decode {config : Config} {e : Exchange} {f : Flow}
    (h : e.decode config = .ok f) :
    f.queryParameters.height ≤ 1 ∧ f.contentParameters.height ≤ 1 ∧
      f.responseStructure.height ≤ config.maxDepth + 2 ∧
      ∀ n, config.maxDepth + 2 ≤ n → e.JsonWithin n → f.contentStructure.height ≤ n := by
  obtain ⟨hquery, hcontent, hparameters, hresponse⟩ := sources_of_decode h
  refine ⟨?_, ?_, ?_, fun n hn hjson => ?_⟩
  · obtain hquery | ⟨query, hquery⟩ := hquery <;> rw [hquery]
    · exact ShapeTree.height_empty_le 0
    · exact Query.height_parse_le query
  · rw [hparameters]
    exact ShapeTree.height_leaves_le _
  · obtain hresponse | ⟨bytes, -, hresponse⟩ := hresponse
    · rw [hresponse]
      exact ShapeTree.height_empty_le _
    · exact Xml.height_le_of_shapeOf hresponse
  · obtain hcontent | hcontent | hcontent := hcontent
    · rw [hcontent]
      exact Nat.le_trans (ShapeTree.height_empty_le _) hn
    · exact hjson.height_le hcontent
    · exact Nat.le_trans (Xml.height_le_of_shapeOf hcontent) hn

end Exchange

end TrafficSchema
