import TrafficSchema.Proofs.Capture.Derived
import TrafficSchema.Proofs.Entity.Visits
import TrafficSchema.Proofs.Exchange.Sources
import TrafficSchema.Proofs.Generator.ReturnType
import TrafficSchema.Proofs.Xml.Attributes

/-!
# What is returned is an element

The search for return types goes through what is left over of the responses of an endpoint, from
which the attributes of entities are taken out, but not those of elements with a version. What the
search finds outside of these attributes was an element in a response (`Capture.ShowsElement`): each
place in the shape of a flow is a place in the response of some exchange
(`Schema.Summarizes.exists_at?_of_flow?`), and in the document that this response was read from, a
place outside of attributes is one of elements (`Capture.showsElement_of_visits`).

The search does not pass over the attributes that are left. So an attribute of an element with a
version is taken for an element if an entity has its name (`not_namesElement_versionedPage`), and
nothing else is (`captureSchema_returns`).
-/

namespace TrafficSchema

/-! ## Documents -/

/-- The response of an exchange is a document with the given root element, compressed or not. -/
def Exchange.Answers (e : Exchange) (root : Xml.Tree) : Prop :=
  ∃ bytes text, Exchange.Carries e.responseBody bytes ∧ String.fromUTF8? bytes = some text ∧
    Xml.Spells ((Xml.Event.read text).filter (· ≠ .skipped)) root

/-- The shape of a response is that of a document, if there is any. -/
theorem Exchange.exists_answers_of_decode {config : Config} {e : Exchange} {f : Flow}
    (h : e.decode config = .ok f) : f.responseStructure = ∅ ∨
      ∃ root : Xml.Tree, e.Answers root ∧ f.responseStructure = root.shape := by
  obtain ⟨-, -, -, hresponse⟩ := sources_of_decode h
  refine hresponse.imp_right ?_
  rintro ⟨bytes, hbytes, hshape⟩
  obtain ⟨text, root, htext, hspells, -, hroot⟩ := Xml.shapeOf_eq_ok_iff.1 hshape
  exact ⟨root, ⟨bytes, text, hbytes, htext, hspells⟩, hroot⟩

namespace Capture

variable {config : Config} {exchanges : List Exchange} {service endpoint : String}

/-- A path of tags leads to an element in the response of some exchange of an endpoint. -/
def ShowsElement (config : Config) (exchanges : List Exchange) (service endpoint : String)
    (path : List String) : Prop :=
  ∃ e ∈ exchanges, ∃ f root, flowOf? config e = some f ∧ f.isAt service endpoint ∧
    e.Answers root ∧ f.responseStructure = root.shape ∧ root.elementsAt path ≠ []

/-- **In the response of an observed flow** a field outside of attributes holds a structure, and was
an element. A field that could hold attributes was one too if it holds none. -/
theorem showsElement_of_visits {g : Flow} (hg : g ∈ observedFlows config exchanges)
    (hat : g.isAt service endpoint) {path : List String} {key : String} {c : ShapeTree} {a : Shape}
    (hc : g.responseStructure.Visits path c) (ha : c.get? key = some a) :
    (∃ d, a = .tree d) ∧ ((key = attributesKey → a = .tree ∅) →
      ShowsElement config exchanges service endpoint (path ++ [key])) := by
  obtain ⟨f, hf, rfl⟩ := List.mem_map.1 hg
  obtain ⟨e, he, hflow⟩ := List.mem_filterMap.1 hf
  obtain ⟨n, hn, rfl⟩ := ShapeTree.visits_residual_iff.1 hc
  obtain ⟨hpath, hkeys, hn⟩ := ShapeTree.visits_iff.1 hn
  obtain hempty | ⟨root, hanswers, hroot⟩ :=
    Exchange.exists_answers_of_decode (decode_eq_of_flowOf? hflow)
  · rw [hempty] at hn
    obtain ⟨first, rest, rfl⟩ := List.exists_cons_of_ne_nil hpath
    cases hn
  rw [hroot] at hn
  have helements := Xml.Tree.elementsAt_ne_nil_of_at? hpath hkeys hn
  -- what the document has under the key is left over, or something is left over of it
  rw [ShapeTree.get?_residualAt, Option.bind_eq_some_iff] at ha
  obtain ⟨b, hb, ha⟩ := ha
  obtain ⟨d, rfl⟩ := Xml.Tree.exists_tree_of_get? hkeys helements hn hb
  have hshows (hbare : key = attributesKey → Shape.tree d = .tree ∅) :
      ShowsElement config exchanges service endpoint (path ++ [key]) :=
    ⟨e, he, f, root, hflow, hat, hanswers, hroot,
      Xml.Tree.elementsAt_concat_ne_nil hkeys helements hn hb hbare⟩
  rw [Shape.residualAt] at ha
  split at ha
  · split at ha
    · cases ha
    · cases ha
      exact ⟨⟨d, rfl⟩, hshows⟩
  · rename_i hvisited
    cases ha
    exact ⟨⟨_, rfl⟩, fun _ => hshows fun hkey =>
      absurd (ShapeTree.skips_inside_iff.2 hkey) hvisited⟩

end Capture

/-! ## Endpoints -/

namespace Schema.Summarizes

variable {s : Schema} {flows : List Flow} {entities : List Entity} {service endpoint : String}
  {f : Flow}

/-- **A place in the response of an endpoint** is a place in one of the responses that were observed
there, where less may have been seen. -/
theorem exists_at?_of_flow? (hs : s.Summarizes flows entities)
    (hf : s.flow? service endpoint = some f) {path : List String} {a : Shape}
    (ha : (Shape.tree f.responseStructure).at? path = some a) :
    ∃ g ∈ flows, g.isAt service endpoint ∧
      ∃ b ≤ a, (Shape.tree g.responseStructure).at? path = some b := by
  have hplace := hs.of_flow?
    (P := fun f => ∀ a, (Shape.tree f.responseStructure).at? path = some a →
      ∃ g ∈ flows, g.isAt service endpoint ∧
        ∃ b ≤ a, (Shape.tree g.responseStructure).at? path = some b)
    (fun g hg hat a ha => ⟨g, hg, hat, a, le_rfl, ha⟩)
  refine hplace (fun f g hf hg a ha => ?_) hf a ha
  have hmerged : Shape.unify? .widen ((Shape.tree f.responseStructure).at? path)
      ((Shape.tree g.responseStructure).at? path) = some a := (Shape.at?_sup _ _ path).symm.trans ha
  obtain ⟨b, hle, hb | hb⟩ := Shape.exists_le_of_unify?_eq_some hmerged
  · obtain ⟨g', hg', hat, c, hc, hget⟩ := hf b hb
    exact ⟨g', hg', hat, c, hc.trans hle, hget⟩
  · obtain ⟨g', hg', hat, c, hc, hget⟩ := hg b hb
    exact ⟨g', hg', hat, c, hc.trans hle, hget⟩

/-- The responses that are left over stand for no entity, in any element that is visited. -/
theorem residual_of_flow? {config : Config} {exchanges : List Exchange}
    (hs : s.Summarizes (Capture.observedFlows config exchanges) entities)
    (hf : s.flow? service endpoint = some f) : f.responseStructure.Residual := by
  refine hs.of_flow? (P := fun f => f.responseStructure.Residual) (fun g hg _ => ?_)
    (fun f g hf hg => hf.merge .widen hg) hf
  obtain ⟨e, -, g, -, rfl⟩ := Capture.exists_decode_of_mem_observedFlows hg
  exact ShapeTree.residual_extractEntities g.responseStructure

end Schema.Summarizes

/-! ## Returns -/

namespace ShapeTree

/-- A path leads to the attributes of a visited element with a version, or to something in them. -/
def InVersion (t : ShapeTree) (path : List String) : Prop :=
  ∃ before after n attributes, path = before ++ attributesKey :: after ∧ t.Visits before n ∧
    n.get? attributesKey = some (.tree attributes) ∧ attributes.contains versionAttribute ∧
    ∃ a, (Shape.tree t).at? path = some a

/-- The attributes that are left in a residual are empty or have a version. -/
theorem Residual.attributes_eq {t n attributes : ShapeTree} (ht : t.Residual) {path : List String}
    (hn : t.Visits path n) (hattributes : n.get? attributesKey = some (.tree attributes)) :
    attributes = ∅ ∨ attributes.contains versionAttribute :=
  entityAttributes?_eq_none_iff.1 (ht.entityFree_of_visits hn).self attributes hattributes

/-- A path through the attributes in a residual goes through those of an element with a version. -/
theorem Residual.inVersion {t : ShapeTree} (ht : t.Residual) {path : List String} {name : String}
    {a : Shape} (hkeys : attributesKey ∈ path.tail)
    (ha : (Shape.tree t).at? (path ++ [name]) = some a) : t.InVersion (path ++ [name]) := by
  cases path with
  | nil => cases hkeys
  | cons first rest =>
    -- the first key of attributes on the path stands in an element that is visited
    obtain ⟨before, after, rfl, hbefore⟩ := List.eq_append_cons_of_mem hkeys
    have hsplit : first :: (before ++ attributesKey :: after) ++ [name] =
        (first :: before) ++ attributesKey :: (after ++ [name]) := by simp
    have hinside := ha
    rw [hsplit, Shape.at?_append, Option.bind_eq_some_iff] at hinside
    obtain ⟨b, hb, hinside⟩ := hinside
    obtain ⟨n, attributes, key, c, rfl, hattributes, hc⟩ :=
      Shape.exists_get?_of_at?_cons (by simp) hinside
    have hn : t.Visits (first :: before) n :=
      visits_iff.2 ⟨List.cons_ne_nil first before, hbefore, hb⟩
    obtain rfl | hversion := ht.attributes_eq hn hattributes
    · cases hc
    · exact ⟨first :: before, after ++ [name], n, attributes, hsplit, hn, hattributes, hversion, a,
        ha⟩

end ShapeTree

/-- A return names an element of a response: the path to its container does not go through
attributes, and leads on to a structure under the name of the entity, and to an element with this
name in the response of some exchange. -/
structure EntityReturn.NamesElement (r : EntityReturn) (config : Config) (exchanges : List Exchange)
    (service endpoint : String) (response : ShapeTree) (path : List String) : Prop where
  outside : attributesKey ∉ path.tail
  structured : ∃ d, (Shape.tree response).at? (path ++ [r.entityName]) = some (.tree d)
  shown : Capture.ShowsElement config exchanges service endpoint (path ++ [r.entityName])

/-- **Every return names an element**, or it was found in the attributes of an element with a
version. -/
theorem captureSchema_returns (config : Config) (exchanges : List Exchange) :
    ∃ s, captureSchema config exchanges = .ok s ∧
      ∀ service endpoint f, s.flow? service endpoint = some f →
        ∀ r ∈ (resolveReturnType f.responseStructure s.entityNames).entities,
          ∃ path, path.getLast? = some r.containerTag ∧
            (r.NamesElement config exchanges service endpoint f.responseStructure path ∨
              f.responseStructure.InVersion (path ++ [r.entityName])) := by
  obtain ⟨s, hs, hsum⟩ := captureSchema_summarizes config exchanges
  refine ⟨s, hs, fun service endpoint f hf r hr => ?_⟩
  have hresidual : f.responseStructure.Residual := hsum.residual_of_flow? hf
  obtain ⟨⟨path, _⟩, hm, rfl, hcontainer, -⟩ :=
    (ShapeTree.describes_resolveReturnType _ _).exists_of_mem hr
  obtain ⟨hpath, hholds⟩ := ShapeTree.mem_flatten_branches_iff.1 hm
  obtain ⟨c, hc, hcontains⟩ := hholds.field
  obtain ⟨a, ha⟩ := ShapeTree.contains_iff.1 hcontains
  have hplace : (Shape.tree f.responseStructure).at? (path ++ [r.entityName]) = some a :=
    Shape.at?_concat_eq_some_iff.2 ⟨c, hc, ha⟩
  refine ⟨path, hcontainer, ?_⟩
  by_cases hkeys : attributesKey ∈ path.tail
  · exact .inr (hresidual.inVersion hkeys hplace)
  -- the container is visited, in the flow and in one of those that it was folded from
  have hvisits : f.responseStructure.Visits path c := ShapeTree.visits_iff.2 ⟨hpath, hkeys, hc⟩
  obtain ⟨g, hg, hat, b, hle, hb⟩ := hsum.exists_at?_of_flow? hf hplace
  obtain ⟨c', hc', hb⟩ := Shape.at?_concat_eq_some_iff.1 hb
  have hvisits' : g.responseStructure.Visits path c' := ShapeTree.visits_iff.2 ⟨hpath, hkeys, hc'⟩
  obtain ⟨⟨d', rfl⟩, hshows⟩ := Capture.showsElement_of_visits hg hat hvisits' hb
  cases a with
  | scalar x => exact absurd hle (Shape.not_tree_le_scalar d' x)
  | tree d =>
    by_cases hversion : r.entityName = attributesKey ∧ d.contains versionAttribute
    · obtain ⟨hname, hversion⟩ := hversion
      rw [hname] at ha hplace ⊢
      exact .inr ⟨path, [], c, d, rfl, hvisits, ha, hversion, _, hplace⟩
    · -- attributes without a version are empty, and were so when they were observed
      refine .inl ⟨hkeys, ⟨d, hplace⟩, hshows fun hname => congrArg Shape.tree ?_⟩
      rw [hname] at ha
      obtain rfl | hcontains := hresidual.attributes_eq hvisits ha
      · exact le_bot_iff.1 (Shape.tree_le_tree.1 hle)
      · exact absurd ⟨hname, hcontains⟩ hversion

theorem captureSchema_returns_orders : ∃ s f,
    captureSchema {} [Schema.versioned] = .ok s ∧ s.flow? "orders" "list" = some f ∧
    (resolveReturnType f.responseStructure s.entityNames).entities =
      [⟨"order", "response", false⟩] ∧
    ∃ path, path.getLast? = some "response" ∧
      (EntityReturn.NamesElement ⟨"order", "response", false⟩ {} [Schema.versioned] "orders" "list"
          f.responseStructure path ∨
        f.responseStructure.InVersion (path ++ ["order"])) := by
  obtain ⟨s, hs, hreturns⟩ := captureSchema_returns {} [Schema.versioned]
  have hread : (captureSchema {} [Schema.versioned]).toOption.any fun s =>
      (s.flow? "orders" "list").map
        (fun f => (resolveReturnType f.responseStructure s.entityNames).entities) =
          some [⟨"order", "response", false⟩] := by decide +kernel
  rw [hs] at hread
  obtain ⟨f, hf, hentities⟩ := Option.map_eq_some_iff.1 (of_decide_eq_true hread)
  have hmem : ⟨"order", "response", false⟩ ∈
      (resolveReturnType f.responseStructure s.entityNames).entities := by
    rw [hentities]
    exact List.mem_cons_self
  exact ⟨s, f, hs, hf, hentities, hreturns "orders" "list" f hf _ hmem⟩

/-- A list of items, which are entities. -/
def listedItems : Exchange :=
  Schema.answered "/shop/list" "<items><item id=\"1\"/></items>"

/-- A page with a version and an attribute that has the name of an entity. -/
def versionedPage : Exchange :=
  Schema.answered "/shop/show" "<show><page version=\"1\" item=\"x\"/></show>"

/-- **An attribute can be taken for an element**: that of a page with a version has the name of an
entity, and is returned as if it was an item in an element with the tag `properties`. -/
theorem not_namesElement_versionedPage : ∃ s f,
    captureSchema {} [listedItems, versionedPage] = .ok s ∧ s.flow? "shop" "show" = some f ∧
    (resolveReturnType f.responseStructure s.entityNames).entities =
      [⟨"item", attributesKey, false⟩] ∧
    ¬ ∃ path c d, path.getLast? = some attributesKey ∧ attributesKey ∉ path.tail ∧
      (Shape.tree f.responseStructure).at? path = some (.tree c) ∧
      c.get? "item" = some (.tree d) := by
  obtain ⟨s, hs, hsum⟩ := captureSchema_summarizes {} [listedItems, versionedPage]
  have hnames : s.entities =
      Entity.recordAll (Capture.observedEntities {} [listedItems, versionedPage]) :=
    Dict.ext_get? fun name => (hsum.get?_entities name).trans (Entity.get?_recordAll _ name).symm
  have hread : (s.flow? "shop" "show").map (fun f =>
      ((resolveReturnType f.responseStructure s.entityNames).entities,
        f.responseStructure.get? attributesKey)) =
      some ([⟨"item", attributesKey, false⟩], none) := by
    rw [hsum.flow?_eq, Schema.entityNames, hnames]
    decide +kernel
  obtain ⟨f, hf, hreturns⟩ := Option.map_eq_some_iff.1 hread
  obtain ⟨hentities, houtermost⟩ := Prod.mk.inj hreturns
  refine ⟨s, f, hs, hf, hentities, ?_⟩
  rintro ⟨path, c, d, hlast, hkeys, hc, -⟩
  -- the container has the key of attributes as its tag, so it could only be the root
  obtain ⟨before, rfl⟩ := List.getLast?_eq_some_iff.1 hlast
  cases before with
  | nil => simp [houtermost] at hc
  | cons first rest => simp at hkeys

end TrafficSchema
