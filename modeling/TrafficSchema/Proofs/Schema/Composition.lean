import TrafficSchema.Proofs.Schema.Override
import TrafficSchema.Proofs.Shape.Corrections
import TrafficSchema.Proofs.Shape.Leaves

/-!
# Putting corrections together

Corrections that are applied one after the other can be put together first, by applying the later
ones to the earlier ones. Of the fields of a flow only the trees stand in the way of this, and they
only where the later corrections have a structure again in a place where the earlier ones put a tag
over a structure (`Schema.Reinstates`): applied in turn, the tag takes away what was there before,
and nothing of it comes back.

Whatever is missing on one of the three sides can be put together in any way
(`Dict.unionWith_assoc_of`), so only endpoints and entities that all three sides have matter.
-/

namespace TrafficSchema

/-! ## Trees and flows -/

/-- At some place the first tree has a structure, the second a tag that says anything, and the
third a structure again. -/
def ShapeTree.Reinstates (s t u : ShapeTree) : Prop := (Shape.tree s).Reinstates (.tree t) (.tree u)

theorem ShapeTree.merge_override_assoc {s t u : ShapeTree} (h : ¬ s.Reinstates t u) :
    (s.merge .override t).merge .override u = s.merge .override (t.merge .override u) :=
  Shape.tree.inj (Shape.unify_override_assoc h)

/-- Without this condition the grouping may matter: an item loses its id for good once it was taken
for plain text, even if it gets a name later. -/
example : ∃ s t u : ShapeTree, s.Reinstates t u ∧
    (s.merge .override t).merge .override u ≠ s.merge .override (t.merge .override u) :=
  ⟨.singleton "item" (.tree (.singleton "id" (.scalar .int))), .singleton "item" (.scalar .str),
    .singleton "item" (.tree (.singleton "name" (.scalar .str))),
    ⟨["item"], _, .str, _, rfl, by decide, rfl, rfl⟩, by decide⟩

/-- The corrections disagree in a place where the later ones reinstate a structure. -/
theorem ShapeTree.Reinstates.clash {s t u : ShapeTree} (h : s.Reinstates t u) : t.Clash u := by
  obtain ⟨path, -, y, c, -, -, ht, hu⟩ := h
  exact ⟨path, y, c, ht, hu⟩

namespace Flow

/-- Some tree of a flow has a structure reinstated. -/
def Reinstates (f g h : Flow) : Prop :=
  f.queryParameters.Reinstates g.queryParameters h.queryParameters ∨
    f.contentStructure.Reinstates g.contentStructure h.contentStructure ∨
    f.contentParameters.Reinstates g.contentParameters h.contentParameters ∨
    f.responseStructure.Reinstates g.responseStructure h.responseStructure

/-- Names, content types, references and the mark of compression can always be put together. -/
theorem merge_override_assoc {f g h : Flow} (hr : ¬ f.Reinstates g h) :
    (f.merge .override g).merge .override h = f.merge .override (g.merge .override h) := by
  simp only [Reinstates, not_or] at hr
  obtain ⟨hquery, hcontent, hparameters, hresponse⟩ := hr
  simp only [merge_eq, prefer_assoc, ShapeTree.merge_override_assoc hquery,
    ShapeTree.merge_override_assoc hcontent, ShapeTree.merge_override_assoc hparameters,
    ShapeTree.merge_override_assoc hresponse]

end Flow

namespace Schema

variable {s t u : Schema}

/-! ## Schemas -/

/-- Some endpoint or some entity that all three schemas have has a structure reinstated. -/
inductive Reinstates (s t u : Schema) : Prop
  | flow {service endpoint : String} {f g h : Flow} (hf : s.flow? service endpoint = some f)
      (hg : t.flow? service endpoint = some g) (hh : u.flow? service endpoint = some h)
      (hr : f.Reinstates g h) : Reinstates s t u
  | entity {key : String} {a b c : Entity} (ha : s.entity? key = some a)
      (hb : t.entity? key = some b) (hc : u.entity? key = some c)
      (hr : a.properties.Reinstates b.properties c.properties) : Reinstates s t u

theorem joinWith_override_assoc (h : ¬ s.Reinstates t u) :
    (s.joinWith .override t).joinWith .override u =
      s.joinWith .override (t.joinWith .override u) := by
  refine congrArg₂ Schema.mk ?_ ?_
  · refine Dict.unionWith_assoc_of fun service flows₁ flows₂ flows₃ h₁ h₂ h₃ => ?_
    refine Dict.unionWith_assoc_of fun endpoint f₁ f₂ f₃ hf₁ hf₂ hf₃ => ?_
    have hf : s.flow? service endpoint = some f₁ := Option.bind_eq_some_iff.2 ⟨flows₁, h₁, hf₁⟩
    have hg : t.flow? service endpoint = some f₂ := Option.bind_eq_some_iff.2 ⟨flows₂, h₂, hf₂⟩
    have hh : u.flow? service endpoint = some f₃ := Option.bind_eq_some_iff.2 ⟨flows₃, h₃, hf₃⟩
    exact Flow.merge_override_assoc fun hr => h (.flow hf hg hh hr)
  · refine Dict.unionWith_assoc_of fun key a b c ha hb hc => ?_
    exact congrArg (Entity.mk a.name)
      (ShapeTree.merge_override_assoc fun hr => h (.entity ha hb hc hr))

/-- **Corrections compose.** If all entities stand under their own names, applying two corrections
in turn gives the same schema as applying the first ones corrected by the second ones, unless the
second ones reinstate a structure that the first ones put a tag in the place of. -/
theorem override_override {s o₁ o₂ : Schema} (hs : Entity.Keyed s.entities)
    (h₁ : Entity.Keyed o₁.entities) (h₂ : Entity.Keyed o₂.entities) (h : ¬ s.Reinstates o₁ o₂) :
    ∃ r, (s.override o₁ >>= fun m => m.override o₂) = .ok r ∧
      (o₁.override o₂ >>= fun m => s.override m) = .ok r := by
  obtain ⟨m, hm⟩ := exists_combine_eq_ok .override hs h₁
  obtain ⟨r, hr⟩ := exists_combine_eq_ok .override (keyed_of_combine hs h₁ hm) h₂
  have hturn : (s.override o₁ >>= fun m => m.override o₂) = .ok r :=
    bind_eq_ok_iff.2 ⟨m, hm, hr⟩
  exact ⟨r, hturn, (combine_assoc_of (joinWith_override_assoc h)).1 hturn⟩

/-- A list of items and the item as an entity, both of one shape. -/
def listed (item : ShapeTree) : Schema :=
  (({} : Schema).insertFlow
      { service := "items", endpoint := "list", responseStructure := item }).insertEntity
    ⟨"item", item⟩

theorem keyed_listed (item : ShapeTree) : Entity.Keyed (listed item).entities :=
  keyed_insertEntity Entity.keyed_empty ⟨"item", item⟩

theorem flow?_listed {item : ShapeTree} {service endpoint : String} {f : Flow}
    (h : (listed item).flow? service endpoint = some f) :
    f = { service := "items", endpoint := "list", responseStructure := item } := by
  have hflow := (flow?_insertFlow _ _ service endpoint).symm.trans h
  split at hflow
  · cases hflow
    rfl
  · cases hflow

theorem entity?_listed {item : ShapeTree} {key : String} {a : Entity}
    (h : (listed item).entity? key = some a) : a = ⟨"item", item⟩ := by
  have hentity := (entity?_insertEntity _ _ key).symm.trans h
  split at hentity
  · cases hentity
    rfl
  · cases hentity

/-- A number of items. -/
def itemCount : ShapeTree := .singleton "itemCount" (.scalar .int)

theorem not_reinstates_listed :
    ¬ (listed .nestedItem).Reinstates (listed .plainItem) (listed itemCount) := by
  rintro (⟨-, hg, hh, hr⟩ | ⟨-, hb, hc, hr⟩)
  · rw [flow?_listed hg, flow?_listed hh] at hr
    rcases hr with hr | hr | hr | hr
    all_goals exact absurd hr.clash (by decide)
  · rw [entity?_listed hb, entity?_listed hc] at hr
    exact absurd hr.clash (by decide)

theorem override_override_listed :
    ¬ (listed .nestedItem).Reinstates (listed .plainItem) (listed itemCount) ∧
      ∃ r, ((listed .nestedItem).override (listed .plainItem) >>= fun m =>
          m.override (listed itemCount)) = .ok r ∧
        ((listed .plainItem).override (listed itemCount) >>= fun m =>
          (listed .nestedItem).override m) = .ok r :=
  ⟨not_reinstates_listed, override_override (keyed_listed _) (keyed_listed _) (keyed_listed _)
    not_reinstates_listed⟩

end Schema

end TrafficSchema
