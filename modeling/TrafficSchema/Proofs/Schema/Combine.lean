import TrafficSchema.Proofs.Except
import TrafficSchema.Proofs.Schema.Merge

/-!
# When schemas can be combined

Combining fails just if some key holds entities of different names on the two sides, that is, if
their entities are not compatible (`Entity.Compatible`). Otherwise the result holds every key of
either side, and what both sides hold under one key merged (`Schema.combine_eq_ok_iff`).

Three dictionaries can be combined in either grouping or in neither (`Entity.compatible_assoc`),
because the union of compatible entities is compatible with just what both are compatible with.
-/

namespace TrafficSchema

/-! ## Compatible entities -/

namespace Entity

/-- No key holds entities of different names. -/
def Compatible (d e : Dict Entity) : Prop :=
  ∀ key a b, d.get? key = some a → e.get? key = some b → a.name = b.name

/-- The name of the entity that a key holds. -/
def nameAt? (d : Dict Entity) (key : String) : Option String := (d.get? key).map name

variable {mode : MergeMode} {c d e : Dict Entity}

theorem compatible_iff :
    Compatible d e ↔ ∀ key n m, nameAt? d key = some n → nameAt? e key = some m → n = m := by
  simp only [nameAt?, Option.map_eq_some_iff]
  constructor
  · rintro h key n m ⟨a, ha, rfl⟩ ⟨b, hb, rfl⟩
    exact h key a b ha hb
  · exact fun h key a b ha hb => h key a.name b.name ⟨a, ha, rfl⟩ ⟨b, hb, rfl⟩

theorem compatible_refl (d : Dict Entity) : Compatible d d := by
  intro key a b ha hb
  rw [ha, Option.some.injEq] at hb
  rw [hb]

theorem compatible_comm : Compatible d e ↔ Compatible e d :=
  ⟨fun h key a b ha hb => (h key b a hb ha).symm, fun h key a b ha hb => (h key b a hb ha).symm⟩

/-- A merged entity has the name of the first one. -/
theorem nameAt?_unionWith (mode : MergeMode) (d e : Dict Entity) (key : String) :
    nameAt? (d.unionWith (join mode) e) key = (nameAt? d key).or (nameAt? e key) := by
  simp only [nameAt?, Dict.get?_unionWith]
  cases d.get? key <;> cases e.get? key <;> rfl

/-- The union of compatible entities is compatible with what both are compatible with. -/
theorem compatible_unionWith_left (h : Compatible c d) :
    Compatible (c.unionWith (join mode) d) e ↔ Compatible c e ∧ Compatible d e := by
  rw [compatible_iff] at h
  simp only [compatible_iff, nameAt?_unionWith, ← forall_and]
  refine forall_congr' fun key => ?_
  specialize h key
  cases hc : nameAt? c key with
  | none => simp
  | some n =>
    cases hd : nameAt? d key with
    | none => simp
    | some m =>
      obtain rfl : n = m := h n m hc hd
      simp

theorem compatible_unionWith_right (h : Compatible d e) :
    Compatible c (d.unionWith (join mode) e) ↔ Compatible c d ∧ Compatible c e := by
  rw [compatible_comm, compatible_unionWith_left h, compatible_comm, @compatible_comm e c]

/-- Three dictionaries can be combined in either grouping or in neither. -/
theorem compatible_assoc :
    (Compatible c d ∧ Compatible (c.unionWith (join mode) d) e) ↔
      (Compatible d e ∧ Compatible c (d.unionWith (join mode) e)) := by
  constructor
  · rintro ⟨hcd, hu⟩
    obtain ⟨hce, hde⟩ := (compatible_unionWith_left hcd).1 hu
    exact ⟨hde, (compatible_unionWith_right hde).2 ⟨hcd, hce⟩⟩
  · rintro ⟨hde, hu⟩
    obtain ⟨hcd, hce⟩ := (compatible_unionWith_right hde).1 hu
    exact ⟨hcd, (compatible_unionWith_left hcd).2 ⟨hce, hde⟩⟩

theorem join_self (mode : MergeMode) (a : Entity) : a.join mode a = a :=
  congrArg (Entity.mk a.name) (ShapeTree.merge_self mode a.properties)

theorem join_join_right (mode : MergeMode) (a b : Entity) :
    (a.join mode b).join mode b = a.join mode b :=
  congrArg (Entity.mk a.name) (ShapeTree.merge_merge_right mode a.properties b.properties)

theorem join_widen_join_left (a b : Entity) : (a.join .widen b).join .widen a = a.join .widen b :=
  congrArg (Entity.mk a.name) (ShapeTree.merge_widen_merge_left a.properties b.properties)

end Entity

namespace Schema

open Entity (Compatible)

/-! ## Success -/

/-- Only entities of one name are merged into what a key holds. -/
theorem name_of_combineEntity {mode : MergeMode} {d d' : Dict Entity} {key : String} {b : Entity}
    (h : combineEntity mode d key b = .ok d') :
    ∀ a, d.get? key = some a → a.name = b.name := by
  intro a ha
  by_contra hname
  simp only [combineEntity, ha, Entity.merge, if_neg hname] at h
  cases h

/-- If entities could be merged key by key, they are compatible. -/
theorem compatible_of_combineEntities {mode : MergeMode} {d e m : Dict Entity}
    (h : combineEntities mode d e = .ok m) : Compatible d e := by
  obtain ⟨l, hl⟩ := e
  change l.foldlM (fun acc e => combineEntity mode acc e.1 e.2) d = .ok m at h
  change ∀ key a b, d.get? key = some a → Dict.findEntry key l = some b → a.name = b.name
  induction l generalizing d with
  | nil => exact fun _ _ _ _ => nofun
  | cons head l ih =>
    obtain ⟨k, b⟩ := head
    obtain ⟨-, hl⟩ := List.pairwise_cons.1 hl
    rw [List.foldlM_cons, bind_eq_ok_iff] at h
    obtain ⟨d', hd', h⟩ := h
    have hhead := name_of_combineEntity hd'
    obtain ⟨d'', hd'', hget⟩ := combineEntity_eq mode d k b hhead
    rw [hd', Except.ok.injEq] at hd''
    subst hd''
    intro key a b' ha hb'
    rw [Dict.findEntry] at hb'
    split at hb'
    · rename_i hkey
      rw [Option.some.injEq] at hb'
      rw [← hb']
      exact hhead a (hkey ▸ ha)
    · rename_i hkey
      -- the step has not touched this key
      exact ih hl h key a b' (by rw [hget, if_neg hkey, ha]) hb'

/-- What two schemas combine to if their entities are compatible. -/
def joinWith (mode : MergeMode) (s t : Schema) : Schema :=
  ⟨combineEndpoints mode s.endpoints t.endpoints,
    s.entities.unionWith (Entity.join mode) t.entities⟩

/-- **Schemas can be combined just if their entities are compatible.** -/
theorem combine_eq_ok_iff {mode : MergeMode} {s t u : Schema} :
    combine mode s t = .ok u ↔ Compatible s.entities t.entities ∧ u = joinWith mode s t := by
  have hok (h : Compatible s.entities t.entities) : combine mode s t = .ok (joinWith mode s t) := by
    rw [combine, combineEntities_eq h]
    rfl
  constructor
  · intro h
    have hcompatible : Compatible s.entities t.entities := by
      rw [combine, bind_eq_ok_iff] at h
      obtain ⟨entities, hentities, -⟩ := h
      exact compatible_of_combineEntities hentities
    rw [hok hcompatible, Except.ok.injEq] at h
    exact ⟨hcompatible, h.symm⟩
  · rintro ⟨h, rfl⟩
    exact hok h

/-! ## Laws -/

instance : Std.Associative (combineEndpoints .widen) :=
  inferInstanceAs (Std.Associative (Dict.unionWith (Dict.unionWith (Flow.merge .widen))))

theorem combineEndpoints_self (mode : MergeMode) (d : Endpoints) : combineEndpoints mode d d = d :=
  Dict.unionWith_self (Dict.unionWith_self (Flow.merge_self mode)) d

theorem combineEndpoints_right (mode : MergeMode) (d e : Endpoints) :
    combineEndpoints mode (combineEndpoints mode d e) e = combineEndpoints mode d e :=
  Dict.unionWith_unionWith_right (Dict.unionWith_self (Flow.merge_self mode))
    (Dict.unionWith_unionWith_right (Flow.merge_self mode) (Flow.merge_merge_right mode)) d e

theorem combineEndpoints_widen_left (d e : Endpoints) :
    combineEndpoints .widen (combineEndpoints .widen d e) d = combineEndpoints .widen d e :=
  Dict.unionWith_unionWith_left (Dict.unionWith_self (Flow.merge_self .widen))
    (Dict.unionWith_unionWith_left (Flow.merge_self .widen) Flow.merge_widen_merge_left) d e

theorem joinWith_widen_assoc (s t u : Schema) :
    (s.joinWith .widen t).joinWith .widen u = s.joinWith .widen (t.joinWith .widen u) := by
  have hendpoints : Std.Associative (combineEndpoints .widen) := inferInstance
  have hentities : Std.Associative (Dict.unionWith (Entity.join .widen)) := inferInstance
  exact congrArg₂ Schema.mk (hendpoints.assoc s.endpoints t.endpoints u.endpoints)
    (hentities.assoc s.entities t.entities u.entities)

theorem combine_self (mode : MergeMode) (s : Schema) : combine mode s s = .ok s := by
  refine combine_eq_ok_iff.2 ⟨Entity.compatible_refl s.entities, ?_⟩
  exact congrArg₂ Schema.mk (combineEndpoints_self mode s.endpoints).symm
    (Dict.unionWith_self (Entity.join_self mode) s.entities).symm

/-- **Combining once more with the same schema changes nothing**, in either mode. -/
theorem combine_combine_right {mode : MergeMode} {s t u : Schema} (h : combine mode s t = .ok u) :
    combine mode u t = .ok u := by
  obtain ⟨hst, rfl⟩ := combine_eq_ok_iff.1 h
  have hcompatible : Compatible (s.joinWith mode t).entities t.entities :=
    (Entity.compatible_unionWith_left hst).2 ⟨hst, Entity.compatible_refl t.entities⟩
  refine combine_eq_ok_iff.2 ⟨hcompatible, ?_⟩
  exact congrArg₂ Schema.mk (combineEndpoints_right mode s.endpoints t.endpoints).symm
    (Dict.unionWith_unionWith_right (Entity.join_self mode) (Entity.join_join_right mode)
      s.entities t.entities).symm

/-- When widening, combining once more with the first schema changes nothing either. -/
theorem combine_widen_combine_left {s t u : Schema} (h : combine .widen s t = .ok u) :
    combine .widen u s = .ok u := by
  obtain ⟨hst, rfl⟩ := combine_eq_ok_iff.1 h
  have hcompatible : Compatible (s.joinWith .widen t).entities s.entities :=
    (Entity.compatible_unionWith_left hst).2
      ⟨Entity.compatible_refl s.entities, Entity.compatible_comm.1 hst⟩
  refine combine_eq_ok_iff.2 ⟨hcompatible, ?_⟩
  exact congrArg₂ Schema.mk (combineEndpoints_widen_left s.endpoints t.endpoints).symm
    (Dict.unionWith_unionWith_left (Entity.join_self .widen) Entity.join_widen_join_left
      s.entities t.entities).symm

/-- Schemas that are merged to the same in either grouping can be combined in either grouping or
in neither. -/
theorem combine_assoc_of {mode : MergeMode} {s t u w : Schema}
    (h : (s.joinWith mode t).joinWith mode u = s.joinWith mode (t.joinWith mode u)) :
    (combine mode s t >>= fun m => combine mode m u) = .ok w ↔
      (combine mode t u >>= fun m => combine mode s m) = .ok w := by
  simp only [bind_eq_ok_iff, combine_eq_ok_iff]
  constructor
  · rintro ⟨m, ⟨hst, rfl⟩, hu, rfl⟩
    obtain ⟨htu, hs⟩ := Entity.compatible_assoc.1 ⟨hst, hu⟩
    exact ⟨t.joinWith mode u, ⟨htu, rfl⟩, hs, h⟩
  · rintro ⟨m, ⟨htu, rfl⟩, hs, rfl⟩
    obtain ⟨hst, hu⟩ := Entity.compatible_assoc.2 ⟨htu, hs⟩
    exact ⟨s.joinWith mode t, ⟨hst, rfl⟩, hu, h.symm⟩

/-- Combining by widening is associative, failures included. -/
theorem combine_widen_assoc {s t u w : Schema} :
    (combine .widen s t >>= fun m => combine .widen m u) = .ok w ↔
      (combine .widen t u >>= fun m => combine .widen s m) = .ok w :=
  combine_assoc_of (joinWith_widen_assoc s t u)

end Schema

end TrafficSchema
