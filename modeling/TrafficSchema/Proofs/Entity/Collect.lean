import Mathlib.Data.List.Induction
import TrafficSchema.Entity
import TrafficSchema.Proofs.Shape.Widening

/-!
# Collecting entities

Entities that stand under their own names (`Entity.Keyed`) merge without conflict. Collecting
starts from nothing and keeps every entity under its own name, so it never fails
(`Entity.collect_eq`); what it holds under a name is the join of all discoveries with that name
(`Entity.get?_recordAll`).
-/

namespace TrafficSchema

namespace Entity

/-- What two entities of one name merge to. -/
def join (mode : MergeMode) (a b : Entity) : Entity :=
  ⟨a.name, a.properties.merge mode b.properties⟩

theorem merge_of_name_eq {a b : Entity} (mode : MergeMode) (h : a.name = b.name) :
    a.merge mode b = .ok (a.join mode b) := by
  rw [merge, if_pos h]
  rfl

instance : Std.Associative (join .widen) where
  assoc a b c := by simp only [join, ShapeTree.merge_widen_eq_sup, sup_assoc]

/-- Every entity stands under its own name. -/
def Keyed (entities : Dict Entity) : Prop := ∀ key e, entities.get? key = some e → e.name = key

theorem keyed_empty : Keyed ∅ := nofun

/-! ## One discovery -/

/-- Joins an entity to the one of the same name among others. -/
def record (entities : Dict Entity) (e : Entity) : Dict Entity :=
  entities.upsert e.name fun old => (Dict.combine? (join .widen) old (some e)).getD e

@[simp] theorem get?_record (entities : Dict Entity) (e : Entity) (key : String) :
    (record entities e).get? key =
      if key = e.name then Dict.combine? (join .widen) (entities.get? key) (some e)
      else entities.get? key := by
  rw [record, Dict.get?_upsert]
  by_cases hkey : key = e.name
  · subst hkey
    cases entities.get? e.name <;> simp
  · simp [hkey]

theorem Keyed.record {entities : Dict Entity} (h : Keyed entities) (e : Entity) :
    Keyed (record entities e) := by
  intro key a ha
  rw [get?_record] at ha
  by_cases hkey : key = e.name
  · rw [if_pos hkey] at ha
    cases hold : entities.get? key with
    | none =>
      rw [hold, Dict.combine?_none_left, Option.some.injEq] at ha
      rw [hkey, ha]
    | some old =>
      rw [hold, Dict.combine?_some_some, Option.some.injEq] at ha
      rw [← ha]
      exact h key old hold
  · rw [if_neg hkey] at ha
    exact h key a ha

/-- Where every entity stands under its own name, no discovery causes a conflict. -/
theorem recordIn_eq {entities : Dict Entity} (h : Keyed entities) (e : Entity) :
    recordIn entities e = .ok (record entities e) := by
  have hinsert (a : Entity) (ha : a.name = e.name)
      (hget : Dict.combine? (join .widen) (entities.get? e.name) (some e) = some a) :
      entities.insert a.name a = record entities e := by
    ext key : 1
    rw [Dict.get?_insert, get?_record, ha]
    by_cases hkey : key = e.name
    · rw [if_pos hkey, if_pos hkey, hkey, hget]
    · rw [if_neg hkey, if_neg hkey]
  cases hold : entities.get? e.name with
  | none =>
    have : recordIn entities e = .ok (entities.insert e.name e) := by
      simp only [recordIn, hold]
      rfl
    rw [this, hinsert e rfl (by rw [hold, Dict.combine?_none_left])]
  | some old =>
    have hname : old.name = e.name := h e.name old hold
    have : recordIn entities e =
        .ok (entities.insert (old.join .widen e).name (old.join .widen e)) := by
      simp only [recordIn, hold, merge_of_name_eq .widen hname]
      rfl
    rw [this, hinsert (old.join .widen e) hname (by rw [hold, Dict.combine?_some_some])]

/-! ## All discoveries -/

/-- Joins all entities of one name. -/
def recordAll (entities : List Entity) : Dict Entity := entities.foldl record ∅

/-- **Collecting entities never fails.** -/
theorem collect_eq (entities : List Entity) : collect entities = .ok (recordAll entities) := by
  have (d : Dict Entity) (hd : Keyed d) :
      entities.foldlM recordIn d = .ok (entities.foldl record d) := by
    induction entities generalizing d with
    | nil => rfl
    | cons e entities ih =>
      rw [List.foldlM_cons, recordIn_eq hd e]
      exact ih (record d e) (hd.record e)
  exact this ∅ keyed_empty

/-- What is held under a name is the join of all entities with that name. -/
theorem get?_recordAll (entities : List Entity) (key : String) :
    (recordAll entities).get? key = reduce? (join .widen) (entities.filter (·.name = key)) := by
  induction entities using List.reverseRecOn with
  | nil => rfl
  | append_singleton entities e ih =>
    rw [recordAll, List.foldl_append, List.foldl_cons, List.foldl_nil, get?_record, ← recordAll, ih,
      List.filter_append, reduce?_append]
    by_cases hkey : key = e.name
    · subst hkey
      simp
    · have hne : ¬ e.name = key := fun h => hkey h.symm
      simp [hkey, hne]

end Entity

end TrafficSchema
