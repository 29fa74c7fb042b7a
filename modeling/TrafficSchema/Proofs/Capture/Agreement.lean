import TrafficSchema.Proofs.Capture.Derived
import TrafficSchema.Proofs.Capture.Leaves
import TrafficSchema.Proofs.Entity.Discovery
import TrafficSchema.Proofs.Exchange.References

/-!
# Entities and responses agree

The entities of a schema and the responses of its flows are held apart and merged apart. Still every
entity comes from an element of some response, and every reference among its properties from a child
of such an element (`Entity.BackedBy`). This holds of a single exchange, where the element is left
over when its entity is taken out, and it is kept when schemas are joined: joining only widens
responses, so no element of a response and none of its children is lost (`Entity.BackedBy.mono`),
and it makes no references that were not there (`Entity.BackedBy.join`).

So it holds of all schemas that were made from captures by joining (`Schema.Joined.agrees`).
Corrections may break it, since they put scalars in the place of elements.
-/

namespace TrafficSchema

/-! ## Entities and elements -/

/-- Whether some response has an element with a tag, at any depth, of which something holds. -/
def HasElement (responses : ShapeTree → Prop) (tag : String) (P : ShapeTree → Prop) : Prop :=
  ∃ response, responses response ∧
    ∃ path c, (Shape.tree response).at? (path ++ [tag]) = some (.tree c) ∧ P c

namespace Entity

/-- The entity with a name is backed by responses: it is an element of some response, and every
reference among its properties stands for a child of such an element, under the child's tag. -/
structure BackedBy (responses : ShapeTree → Prop) (name : String) (e : Entity) : Prop where
  name_eq : e.name = name
  element : HasElement responses name fun _ => True
  reference : ∀ key target, e.properties.get? key = some (.scalar (.reference target)) →
    target = key ∧ HasElement responses name fun c => c.contains key

end Entity

/-- Every response is found again, as it is or widened. -/
def KeptIn (responses responses' : ShapeTree → Prop) : Prop :=
  ∀ r, responses r → ∃ r', responses' r' ∧ r ≤ r'

section Mono

variable {responses responses' : ShapeTree → Prop} {name : String}

theorem ShapeTree.contains_mono {s t : ShapeTree} (h : s ≤ t) {key : String}
    (hkey : s.contains key) : t.contains key := by
  obtain ⟨a, ha⟩ : ∃ a, s.get? key = some a := Option.isSome_iff_exists.1 hkey
  obtain ⟨b, hb, -⟩ := ShapeTree.le_iff.1 h key a ha
  exact Option.isSome_of_mem hb

/-- An element is found in greater responses too. -/
theorem HasElement.mono (h : KeptIn responses responses') {tag : String}
    {P : ShapeTree → Prop} (hP : ∀ c d, c ≤ d → P c → P d) (he : HasElement responses tag P) :
    HasElement responses' tag P := by
  obtain ⟨r, hr, path, c, hc, hPc⟩ := he
  obtain ⟨r', hr', hle⟩ := h r hr
  obtain ⟨b, hb, hcb⟩ := Shape.at?_mono hle hc
  cases b with
  | scalar tag => exact absurd hcb (Shape.not_tree_le_scalar c tag)
  | tree d => exact ⟨r', hr', path, d, hb, hP c d (Shape.tree_le_tree.1 hcb) hPc⟩

/-- **Responses that are widened go on to back an entity.** -/
theorem Entity.BackedBy.mono (h : KeptIn responses responses') {e : Entity}
    (he : e.BackedBy responses name) : e.BackedBy responses' name := by
  refine ⟨he.name_eq, he.element.mono h fun _ _ _ _ => trivial, fun key target hkey => ?_⟩
  obtain ⟨htarget, helement⟩ := he.reference key target hkey
  exact ⟨htarget, helement.mono h fun c d hle hc => ShapeTree.contains_mono hle hc⟩

/-- **Joining entities makes no new references.** -/
theorem Entity.BackedBy.join {a b : Entity} (ha : a.BackedBy responses name)
    (hb : b.BackedBy responses name) : (a.join .widen b).BackedBy responses name := by
  refine ⟨ha.name_eq, ha.element, fun key target hkey => ?_⟩
  change (a.properties.merge .widen b.properties).get? key = _ at hkey
  rw [ShapeTree.get?_merge] at hkey
  obtain hkey | hkey | ⟨x, y, hx, hy, heq⟩ := Shape.unify?_eq_scalar hkey
  · exact ha.reference key target hkey
  · exact hb.reference key target hkey
  · obtain hjoin | hjoin := x.join_eq_or y <;> rw [hjoin] at heq
    · exact ha.reference key target (heq ▸ hx)
    · exact hb.reference key target (heq ▸ hy)

end Mono

/-! ## One response -/

/-- **The entities of a response are backed by what is left over of it**, if there was no reference
in it. -/
theorem ShapeTree.backedBy_residual {t : ShapeTree} (h : t.ReferenceFree) {name : String}
    {e : Entity} (he : (extractEntities t).entities.get? name = some e) :
    e.BackedBy (· = (extractEntities t).residual) name := by
  refine of_get?_extractEntities (fun d hd hname => ?_) (fun a b ha hb => ha.join hb) he
  obtain ⟨path, c, attributes, hin, hout, hattributes, hproperties⟩ :=
    exists_at?_of_mem_discoveries hd
  have hc : c.ReferenceFree := h.at? hin
  have hfree : attributes.ReferenceFree :=
    hc.get? (get?_of_entityAttributes?_eq_some hattributes)
  rw [hname] at hout
  refine ⟨hname, ⟨_, rfl, path, _, hout, trivial⟩, fun key target hkey => ?_⟩
  change d.2.get? key = _ at hkey
  rw [hproperties] at hkey
  obtain ⟨htarget, hne, hcontains⟩ := reference_of_entityProperties hfree hkey
  exact ⟨htarget, _, rfl, path, _, hout, contains_residualAt hcontains hne⟩

namespace Schema

/-! ## One schema -/

/-- The responses of the flows of a schema. -/
def responses (s : Schema) (response : ShapeTree) : Prop :=
  ∃ service endpoint f, s.flow? service endpoint = some f ∧ f.responseStructure = response

/-- All entities are backed by the responses. -/
def Agrees (s : Schema) : Prop :=
  ∀ name e, s.entity? name = some e → e.BackedBy s.responses name

variable {s t u : Schema}

/-- A response that was observed is found again in the summary. -/
theorem Summarizes.exists_le_response {flows : List Flow} {entities : List Entity}
    (hs : s.Summarizes flows entities) {g : Flow} (hg : g ∈ flows) :
    ∃ r, s.responses r ∧ g.responseStructure ≤ r := by
  have hat : g.isAt g.service g.endpoint := Flow.isAt_iff.2 ⟨rfl, rfl⟩
  obtain ⟨f, hf⟩ : ∃ f, s.flow? g.service g.endpoint = some f := by
    rw [← Option.ne_none_iff_exists', hs.flow?_eq, ne_eq, reduce?_eq_none_iff]
    exact List.ne_nil_of_mem (List.mem_filter.2 ⟨hg, hat⟩)
  have hle : g.responseStructure ≤ f.responseStructure :=
    (hs.shape_le_iff hf Flow.responseStructure fun _ _ => rfl).1 le_rfl g hg hat
  exact ⟨_, ⟨_, _, f, hf, rfl⟩, hle⟩

theorem agrees_of_captureSchema {config : Config} {exchanges : List Exchange}
    (h : captureSchema config exchanges = .ok s) : s.Agrees := by
  have hsum := summarizes_of_captureSchema h
  intro name e he
  refine hsum.of_entity? (fun a ha hname => ?_) (fun a b ha hb => ha.join hb) he
  obtain ⟨g, hg, ha⟩ := List.mem_flatMap.1 ha
  obtain ⟨⟨key, a⟩, hkey, rfl⟩ := List.mem_map.1 ha
  -- the entity was found in the response of an exchange, which is still found in the summary
  obtain ⟨x, -, hx⟩ := List.mem_filterMap.1 hg
  obtain ⟨-, -, -, hfree⟩ := Exchange.referenceFree_of_decode (Capture.decode_eq_of_flowOf? hx)
  have hbacked := ShapeTree.backedBy_residual hfree (Dict.mem_entries_iff.1 hkey)
  obtain rfl : key = name := hbacked.name_eq.symm.trans hname
  have hobserved : Capture.stripped g ∈ Capture.observedFlows config exchanges :=
    List.mem_map_of_mem hg
  refine hbacked.mono ?_
  rintro r rfl
  exact hsum.exists_le_response hobserved

/-! ## Joined schemas -/

/-- The responses of both schemas are found again when the schemas are combined. -/
theorem keptIn_of_combine (h : combine .widen s t = .ok u) :
    KeptIn s.responses u.responses ∧ KeptIn t.responses u.responses := by
  have hkept (service endpoint : String) (f : Flow)
      (hf : s.flow? service endpoint = some f ∨ t.flow? service endpoint = some f) :
      ∃ r, u.responses r ∧ f.responseStructure ≤ r := by
    obtain ⟨g, hg, hle⟩ := Dict.exists_combine?_eq_some (f := Flow.merge .widen)
      (r := fun f g => f.responseStructure ≤ g.responseStructure)
      (fun _ => le_rfl) (fun _ _ => le_sup_left) (fun _ _ => le_sup_right) hf
    rw [← flow?_of_combine h] at hg
    exact ⟨_, ⟨service, endpoint, g, hg, rfl⟩, hle⟩
  constructor
  · rintro r ⟨service, endpoint, f, hf, rfl⟩
    exact hkept service endpoint f (.inl hf)
  · rintro r ⟨service, endpoint, f, hf, rfl⟩
    exact hkept service endpoint f (.inr hf)

theorem Agrees.of_merge (hs : s.Agrees) (ht : t.Agrees) (h : s.merge t = .ok u) : u.Agrees := by
  refine merge_invariant hs ht (fun h => ?_) h
  obtain ⟨hleft, hright⟩ := keptIn_of_combine h
  intro name e he
  rw [entity?_of_combine h] at he
  exact Dict.combine?_invariant (fun a b ha hb => ha.join hb)
    (fun a ha => (hs name a ha).mono hleft) (fun b hb => (ht name b hb).mono hright) he

/-- A schema that was made from the schemas of captures by joining them. -/
inductive Joined : Schema → Prop
  | capture {config : Config} {exchanges : List Exchange} {s : Schema}
      (h : captureSchema config exchanges = .ok s) : Joined s
  | merge {s t u : Schema} (hs : Joined s) (ht : Joined t) (h : s.merge t = .ok u) : Joined u
  | mergeAll {parts : List Schema} {u : Schema} (hparts : ∀ s ∈ parts, Joined s)
      (h : mergeAll parts = .ok u) : Joined u

/-- **Entities and responses agree** in a schema that was joined from captures: every entity is an
element of some response, and every reference among its properties refers to its own key, which is
the tag of a child of such an element. -/
theorem Joined.agrees (hs : s.Joined) : s.Agrees := by
  induction hs with
  | capture h => exact agrees_of_captureSchema h
  | merge _ _ h hs ht => exact hs.of_merge ht h
  | mergeAll _ h ih => exact mergeAll_invariant nofun (fun _ _ _ hs ht => hs.of_merge ht) ih h

/-- An order with an item as a child. -/
def itemOrder : Exchange :=
  answered "/orders/list" "<orders><order id=\"1\"><item sku=\"a\"/></order></orders>"

/-- An order with an item as an attribute. -/
def attributeOrder : Exchange :=
  answered "/orders/list" "<orders><order id=\"2\" item=\"b\"/></orders>"

theorem Joined.agrees_orders : ∃ s t u : Schema, captureSchema {} [itemOrder] = .ok s ∧
    captureSchema {} [attributeOrder] = .ok t ∧ s.merge t = .ok u ∧ u.Joined ∧ u.Agrees ∧
    (u.entity? "order").map (·.properties) =
      some (.ofList [("id", .scalar .int), ("item", .scalar (.reference "item"))]) := by
  obtain ⟨s, hs, hsum⟩ := captureSchema_summarizes {} [itemOrder]
  obtain ⟨t, ht, htsum⟩ := captureSchema_summarizes {} [attributeOrder]
  obtain ⟨u, hu, husum⟩ :=
    hsum.merge htsum Capture.observedEntities_eq_nil Capture.observedEntities_eq_nil
  have hjoined : u.Joined := .merge (.capture hs) (.capture ht) hu
  have horder : (u.entity? "order").map (·.properties) =
      some (.ofList [("id", .scalar .int), ("item", .scalar (.reference "item"))]) := by
    rw [entity?, husum.get?_entities, ← Capture.observedEntities_append]
    decide +kernel
  exact ⟨s, t, u, hs, ht, hu, hjoined, hjoined.agrees, horder⟩

end Schema

end TrafficSchema
