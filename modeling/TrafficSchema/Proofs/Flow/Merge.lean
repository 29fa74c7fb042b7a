import Mathlib.Order.Lattice
import TrafficSchema.Flow.Basic
import TrafficSchema.Proofs.Shape.Override

/-!
# Merging flows

Names, content types and references to exchanges are merged by one rule (`Flow.prefer`): when
widening the first one that says something is kept, when overriding the last one.

Widening flows of one endpoint is associative in all fields (`Flow.merge_widen_assoc`). A flow
that was merged last, in either mode, is absorbed by the result (`Flow.merge_merge_right`), and
when widening so is the one that was merged first.

What does not depend on the order is the shape of a flow (`Flow.shapes`): its trees, and whether
the response was compressed. Merging joins the shapes (`Flow.shapes_merge`).
-/

namespace TrafficSchema

namespace Flow

/-! ## Values that may say nothing -/

/-- Of two values the first one, or when overriding the second one, unless it is blank. -/
def prefer {α : Type*} [DecidableEq α] (blank : α) (mode : MergeMode) (a b : α) : α :=
  match mode with
  | .widen => if a = blank then b else a
  | .override => if b = blank then a else b

theorem mergeName_eq_prefer : mergeName = prefer "" := rfl

theorem mergeContentType_eq_prefer : mergeContentType = prefer .unknown := rfl

theorem mergeCapture_eq_prefer : mergeCapture = prefer none := by
  funext mode s t
  cases mode <;> cases s <;> cases t <;> rfl

section Prefer

variable {α : Type*} [DecidableEq α] (blank : α)

theorem prefer_assoc (mode : MergeMode) (a b c : α) :
    prefer blank mode (prefer blank mode a b) c = prefer blank mode a (prefer blank mode b c) := by
  cases mode with
  | widen =>
    simp only [prefer]
    by_cases ha : a = blank
    · simp [ha]
    · simp [ha]
  | override =>
    simp only [prefer]
    by_cases hc : c = blank
    · simp [hc]
    · simp [hc]

theorem prefer_self (mode : MergeMode) (a : α) : prefer blank mode a a = a := by
  cases mode <;> simp [prefer]

theorem prefer_prefer_right (mode : MergeMode) (a b : α) :
    prefer blank mode (prefer blank mode a b) b = prefer blank mode a b := by
  cases mode with
  | widen =>
    simp only [prefer]
    by_cases ha : a = blank
    · simp [ha]
    · simp [ha]
  | override =>
    simp only [prefer]
    by_cases hb : b = blank
    · simp [hb]
    · simp [hb]

theorem prefer_widen_prefer_left (a b : α) :
    prefer blank .widen (prefer blank .widen a b) a = prefer blank .widen a b := by
  simp only [prefer]
  by_cases ha : a = blank
  · by_cases hb : b = blank
    · simp [ha, hb]
    · simp [ha, hb]
  · simp [ha]

end Prefer

theorem mergeName_self (mode : MergeMode) (s : String) : mergeName mode s s = s := by
  rw [mergeName_eq_prefer, prefer_self]

/-- How each field is merged, the names, the content type and the reference by one rule. -/
theorem merge_eq (mode : MergeMode) (f g : Flow) : f.merge mode g =
    { service := prefer "" mode f.service g.service
      endpoint := prefer "" mode f.endpoint g.endpoint
      method := prefer "" mode f.method g.method
      contentType := prefer .unknown mode f.contentType g.contentType
      queryParameters := f.queryParameters.merge mode g.queryParameters
      contentStructure := f.contentStructure.merge mode g.contentStructure
      contentParameters := f.contentParameters.merge mode g.contentParameters
      responseStructure := f.responseStructure.merge mode g.responseStructure
      responseGzipped :=
        match mode with
        | .widen => f.responseGzipped || g.responseGzipped
        | .override => g.responseGzipped
      capture := prefer none mode f.capture g.capture } := by
  rw [← mergeName_eq_prefer, ← mergeContentType_eq_prefer, ← mergeCapture_eq_prefer]
  rfl

/-! ## Associativity -/

/-- Widening flows is associative in all fields. -/
theorem merge_widen_assoc (f g h : Flow) :
    (f.merge .widen g).merge .widen h = f.merge .widen (g.merge .widen h) := by
  simp only [merge_eq, prefer_assoc, ShapeTree.merge_widen_eq_sup, sup_assoc, Bool.or_assoc]

instance : Std.Associative (merge .widen) := ⟨merge_widen_assoc⟩

/-! ## Merging again -/

/-- Merging a flow with itself changes nothing. -/
theorem merge_self (mode : MergeMode) (f : Flow) : f.merge mode f = f := by
  cases mode <;> simp only [merge_eq, prefer_self, ShapeTree.merge_self, Bool.or_self]

/-- **A flow that was merged last is absorbed**, in either mode. -/
theorem merge_merge_right (mode : MergeMode) (f g : Flow) :
    (f.merge mode g).merge mode g = f.merge mode g := by
  cases mode <;>
    simp only [merge_eq, prefer_prefer_right, ShapeTree.merge_merge_right, Bool.or_assoc,
      Bool.or_self]

/-- When widening, a flow that was merged first is absorbed as well. -/
theorem merge_widen_merge_left (f g : Flow) :
    (f.merge .widen g).merge .widen f = f.merge .widen g := by
  have hgzipped : ((f.responseGzipped || g.responseGzipped) || f.responseGzipped) =
      (f.responseGzipped || g.responseGzipped) := by
    rw [Bool.or_right_comm, Bool.or_self]
  simp only [merge_eq, prefer_widen_prefer_left, ShapeTree.merge_widen_merge_left, hgzipped]

/-! ## Shapes -/

/-- The part of a flow that widening joins. -/
def shapes (f : Flow) : ShapeTree × ShapeTree × ShapeTree × ShapeTree × Bool :=
  (f.queryParameters, f.contentStructure, f.contentParameters, f.responseStructure,
    f.responseGzipped)

theorem shapes_merge (f g : Flow) : (f.merge .widen g).shapes = f.shapes ⊔ g.shapes := rfl

/-- The flow without what depends on the order of observation: the method, the content type and
the reference to an exchange. -/
def observed (f : Flow) : Flow :=
  { f with method := "", contentType := .unknown, capture := none }

theorem observed_eq_iff {f g : Flow} :
    f.observed = g.observed ↔
      f.service = g.service ∧ f.endpoint = g.endpoint ∧ f.shapes = g.shapes := by
  simp only [observed, shapes, mk.injEq, Prod.mk.injEq]
  tauto

/-- A flow of the same endpoint has everything that another one has, and no shape is lower. -/
structure WidenedBy (f g : Flow) : Prop where
  service : f.service = g.service
  endpoint : f.endpoint = g.endpoint
  queryParameters : f.queryParameters ≤ g.queryParameters
  contentStructure : f.contentStructure ≤ g.contentStructure
  contentParameters : f.contentParameters ≤ g.contentParameters
  responseStructure : f.responseStructure ≤ g.responseStructure
  responseGzipped : f.responseGzipped → g.responseGzipped

theorem WidenedBy.of_shapes_le {f g : Flow} (hs : f.service = g.service)
    (he : f.endpoint = g.endpoint) (h : f.shapes ≤ g.shapes) : f.WidenedBy g :=
  have ⟨hq, hcs, hcp, hr, hz⟩ := h
  ⟨hs, he, hq, hcs, hcp, hr, hz⟩

end Flow

end TrafficSchema
