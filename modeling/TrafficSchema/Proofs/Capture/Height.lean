import TrafficSchema.Proofs.Capture.Derived
import TrafficSchema.Proofs.Entity.Height
import TrafficSchema.Proofs.Exchange.Height

/-!
# The height of captured schemas

The limit of a configuration is tested against the open elements of a document only. All the same it
bounds whatever is made from responses later: a response has at most two trees more on a path than
the limit says, one around the root element and one for the attributes of the innermost element, and
the properties of an entity, which are taken out of an element in a response, have no more trees than
the limit says (`Schema.HeightsWithin`).

Neither folding observations nor combining schemas makes anything higher
(`Schema.Summarizes.heightsWithin`, `Schema.HeightsWithin.of_combine`). So the bounds hold of the
schemas of captures and of all that is made from them under the same limit
(`Schema.DerivedWithin.heightsWithin`, `captureSchema_heightsWithin`).
-/

namespace TrafficSchema

namespace Schema

/-- Responses and properties are as high as the elements of documents under a limit allow. -/
structure HeightsWithin (limit : Nat) (s : Schema) : Prop where
  response : s.ForallFlows fun f => f.responseStructure.height ≤ limit + 2
  properties : ∀ name e, s.entity? name = some e → e.properties.height ≤ limit

end Schema

/-! ## Observations -/

namespace Capture

variable {config : Config} {exchanges : List Exchange}

/-- The response of an observed flow is limited by the configuration. -/
theorem height_response_of_mem {f : Flow} (hf : f ∈ observedFlows config exchanges) :
    f.responseStructure.height ≤ config.maxDepth + 2 := by
  obtain ⟨e, -, g, hg, rfl⟩ := exists_decode_of_mem_observedFlows hf
  obtain ⟨-, -, hresponse, -⟩ := Exchange.height_le_of_decode hg
  exact Nat.le_trans g.responseStructure.height_residual_extractEntities_le hresponse

/-- An observed entity is limited by the configuration. -/
theorem height_properties_of_mem {a : Entity} (ha : a ∈ observedEntities config exchanges) :
    a.properties.height ≤ config.maxDepth := by
  obtain ⟨e, -, g, hg, ha⟩ := exists_decode_of_mem_observedEntities ha
  obtain ⟨-, -, hresponse, -⟩ := Exchange.height_le_of_decode hg
  exact Dict.forall_iff_values.1 (ShapeTree.height_properties_le hresponse) a ha

end Capture

namespace Schema

open Capture

variable {limit : Nat} {s t u : Schema}

/-- Folding observations makes nothing higher. -/
theorem Summarizes.heightsWithin {config : Config} {exchanges : List Exchange}
    (hs : s.Summarizes (observedFlows config exchanges) (observedEntities config exchanges))
    (hlimit : config.maxDepth ≤ limit) : s.HeightsWithin limit := by
  constructor
  · refine hs.forallFlows (fun f hf => ?_) fun f g => ShapeTree.height_merge_le .widen
    exact Nat.le_trans (height_response_of_mem hf) (Nat.add_le_add_right hlimit 2)
  · intro name e he
    refine hs.of_entity? (P := fun e => e.properties.height ≤ limit) (fun a ha _ => ?_)
      (fun a b => ShapeTree.height_merge_le .widen) he
    exact Nat.le_trans (height_properties_of_mem ha) hlimit

/-! ## Combined schemas -/

namespace HeightsWithin

theorem empty (limit : Nat) : HeightsWithin limit {} := ⟨nofun, nofun⟩

/-- Combining schemas makes nothing higher, in either mode. -/
theorem of_combine {mode : MergeMode} (hs : s.HeightsWithin limit) (ht : t.HeightsWithin limit)
    (h : combine mode s t = .ok u) : u.HeightsWithin limit := by
  constructor
  · exact hs.response.of_combine ht.response (fun f g => ShapeTree.height_merge_le mode) h
  · intro name e he
    rw [entity?_of_combine h] at he
    have hjoin (a b : Entity) (ha : a.properties.height ≤ limit)
        (hb : b.properties.height ≤ limit) : (a.join mode b).properties.height ≤ limit :=
      ShapeTree.height_merge_le mode ha hb
    exact Dict.combine?_invariant hjoin (hs.properties name) (ht.properties name) he

theorem of_merge (hs : s.HeightsWithin limit) (ht : t.HeightsWithin limit)
    (h : s.merge t = .ok u) : u.HeightsWithin limit :=
  merge_invariant hs ht (hs.of_combine ht) h

end HeightsWithin

/-- A schema that was made as a derived one (`Schema.Derived`), from captures whose limits on elements
are not above the given one. -/
inductive DerivedWithin (limit : Nat) : Schema → Prop
  | capture {config : Config} {exchanges : List Exchange} {s : Schema}
      (hlimit : config.maxDepth ≤ limit) (h : captureSchema config exchanges = .ok s) :
      DerivedWithin limit s
  | merge {s t u : Schema} (hs : DerivedWithin limit s) (ht : DerivedWithin limit t)
      (h : s.merge t = .ok u) : DerivedWithin limit u
  | mergeAll {parts : List Schema} {u : Schema} (hparts : ∀ s ∈ parts, DerivedWithin limit s)
      (h : mergeAll parts = .ok u) : DerivedWithin limit u
  | override {s t u : Schema} (hs : DerivedWithin limit s) (ht : DerivedWithin limit t)
      (h : s.override t = .ok u) : DerivedWithin limit u

/-- Any number of steps makes nothing higher. -/
theorem DerivedWithin.heightsWithin (hs : s.DerivedWithin limit) : s.HeightsWithin limit := by
  induction hs with
  | capture hlimit h => exact (summarizes_of_captureSchema h).heightsWithin hlimit
  | merge _ _ h hs ht => exact hs.of_merge ht h
  | mergeAll _ h ih =>
    exact mergeAll_invariant (.empty limit) (fun _ _ _ hs ht => hs.of_merge ht) ih h
  | override _ _ h hs ht => exact hs.of_combine ht h

end Schema

/-- **The limit on elements bounds all that is made from responses.** A capture gives a schema with at
most two trees more than the limit on a path into a response, and at most as many as the limit on a
path into the properties of an entity. So does whatever is made from captures under one limit, by
any number of joins and corrections. -/
theorem captureSchema_heightsWithin :
    (∀ config exchanges, ∃ s, captureSchema config exchanges = .ok s ∧
      s.HeightsWithin config.maxDepth) ∧
    ∀ limit (s : Schema), s.DerivedWithin limit → s.HeightsWithin limit := by
  refine ⟨fun config exchanges => ?_, fun limit s hs => hs.heightsWithin⟩
  obtain ⟨s, hs, hsum⟩ := captureSchema_summarizes config exchanges
  exact ⟨s, hs, hsum.heightsWithin (Nat.le_refl _)⟩

/-- Orders with a status, in which one element has the tag `properties` and another one a version. -/
def openOrders : Exchange :=
  Schema.answered "/orders/list"
    "<orders status=\"open\"><properties page=\"1\"/><order version=\"1\"/></orders>"

/-- Neither bound can be lowered: from a document of two levels come four trees on a path into a
response, and two on a path into the properties of an entity. -/
theorem captureSchema_heightsWithin_openOrders : ∃ s f e,
    captureSchema { maxDepth := 2 } [openOrders] = .ok s ∧ s.DerivedWithin 2 ∧
    s.HeightsWithin 2 ∧ s.flow? "orders" "list" = some f ∧ f.responseStructure.height = 4 ∧
    s.entity? "orders" = some e ∧ e.properties.height = 2 := by
  obtain ⟨s, hs, -⟩ := captureSchema_heightsWithin.1 { maxDepth := 2 } [openOrders]
  have hderived : s.DerivedWithin 2 := .capture (Nat.le_refl 2) hs
  have hwithin : s.HeightsWithin 2 := captureSchema_heightsWithin.2 2 s hderived
  have hread : (captureSchema { maxDepth := 2 } [openOrders]).toOption.any fun s =>
      ((s.flow? "orders" "list").bind fun f =>
        (Shape.tree f.responseStructure).at? ["orders", "order", attributesKey]) =
          some (.tree (.singleton "version" (.scalar .int))) ∧
      ((s.entity? "orders").bind fun e => (Shape.tree e.properties).at? [attributesKey]) =
          some (.tree (.singleton "page" (.scalar .int))) := by decide +kernel
  rw [hs] at hread
  obtain ⟨hflow, hentity⟩ := of_decide_eq_true hread
  obtain ⟨f, hf, hresponse⟩ := Option.bind_eq_some_iff.1 hflow
  obtain ⟨e, he, hproperties⟩ := Option.bind_eq_some_iff.1 hentity
  -- attributes are the innermost tree on their path, so the path to them reaches the bound
  refine ⟨s, f, e, hs, hderived, hwithin, hf, ?_, he, ?_⟩
  · exact Nat.le_antisymm (hwithin.response _ _ f hf) (ShapeTree.length_lt_height_of_at? hresponse)
  · exact Nat.le_antisymm (hwithin.properties _ e he)
      (ShapeTree.length_lt_height_of_at? hproperties)

end TrafficSchema
