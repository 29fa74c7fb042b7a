import TrafficSchema.Proofs.Schema.Combine

/-!
# Applying corrections

Corrections name services, endpoints and entities, and touch nothing else: what only one side
holds is in the result as it was (`Dict.combine?_none_left`, `Dict.combine?_none_right`), and
what is in the result is held by one of the sides. Applying the same corrections again changes
nothing, since whatever was merged last is absorbed (`Schema.combine_combine_right`). The only
reason for failure are entities of different names under one key. It does not arise if entities
stand under their own names, which inserting and combining preserve (`Schema.keyed_insertEntity`,
`Schema.keyed_of_combine`).
-/

namespace TrafficSchema

namespace Schema

variable {s t u : Schema} {mode : MergeMode}

/-! ## What is put into a schema -/

/-- A flow is put under its own names and nowhere else. -/
theorem flow?_insertFlow (s : Schema) (f : Flow) (service endpoint : String) :
    (s.insertFlow f).flow? service endpoint =
      if f.isAt service endpoint then some f else s.flow? service endpoint :=
  f.at?_upsert s.endpoints (fun _ => f) service endpoint

theorem entity?_insertEntity (s : Schema) (e : Entity) (key : String) :
    (s.insertEntity e).entity? key = if key = e.name then some e else s.entity? key :=
  Dict.get?_insert s.entities e.name key e

/-! ## What a combined schema holds -/

theorem flow?_of_combine (h : combine mode s t = .ok u) (service endpoint : String) :
    u.flow? service endpoint =
      Dict.combine? (Flow.merge mode) (s.flow? service endpoint) (t.flow? service endpoint) := by
  obtain ⟨-, rfl⟩ := combine_eq_ok_iff.1 h
  exact at?_combineEndpoints mode s.endpoints t.endpoints service endpoint

theorem entity?_of_combine (h : combine mode s t = .ok u) (key : String) :
    u.entity? key = Dict.combine? (Entity.join mode) (s.entity? key) (t.entity? key) := by
  obtain ⟨-, rfl⟩ := combine_eq_ok_iff.1 h
  exact Dict.get?_unionWith (Entity.join mode) s.entities t.entities key

theorem contains_endpoints_of_combine (h : combine mode s t = .ok u) (service : String) :
    u.endpoints.contains service =
      (s.endpoints.contains service || t.endpoints.contains service) := by
  obtain ⟨-, rfl⟩ := combine_eq_ok_iff.1 h
  exact Dict.contains_unionWith _ s.endpoints t.endpoints service

/-- Combining fails just if some key holds entities of different names. -/
theorem exists_combine_eq_error_iff : (∃ e, combine mode s t = .error e) ↔
    ∃ key a b, s.entity? key = some a ∧ t.entity? key = some b ∧ a.name ≠ b.name := by
  have hiff : (∃ e, combine mode s t = .error e) ↔ ¬ Entity.Compatible s.entities t.entities := by
    simp only [exists_eq_error_iff, ne_eq, combine_eq_ok_iff, not_and, forall_eq_apply_imp_iff]
  rw [hiff, Entity.Compatible]
  push Not
  rfl

/-! ## Entities under their own names -/

theorem keyed_insertEntity (hs : Entity.Keyed s.entities) (e : Entity) :
    Entity.Keyed (s.insertEntity e).entities := by
  intro key a ha
  have hentity := (entity?_insertEntity s e key).symm.trans ha
  split at hentity
  · rename_i hkey
    cases hentity
    exact hkey.symm
  · exact hs key a hentity

/-- Schemas that hold every entity under its own name can be combined. -/
theorem exists_combine_eq_ok (mode : MergeMode) (hs : Entity.Keyed s.entities)
    (ht : Entity.Keyed t.entities) : ∃ u, combine mode s t = .ok u := by
  refine ⟨s.joinWith mode t, combine_eq_ok_iff.2 ⟨fun key a b ha hb => ?_, rfl⟩⟩
  rw [hs key a ha, ht key b hb]

theorem keyed_of_combine (hs : Entity.Keyed s.entities) (ht : Entity.Keyed t.entities)
    (h : combine mode s t = .ok u) : Entity.Keyed u.entities := by
  intro key a ha
  have hentity := (entity?_of_combine h key).symm.trans ha
  -- the joined entity has the name of the first one
  have hjoin (a b : Entity) (ha : a.name = key) (_ : b.name = key) :
      (a.join mode b).name = key := ha
  exact Dict.combine?_invariant hjoin (hs key) (ht key) hentity

/-! ## Corrections -/

/-- **Corrections can be applied again without effect, and touch only what they name.** The result
has the services, the endpoints and the entities of both sides and no others, and what only one
side has is unchanged. Applying corrections fails just if some key holds entities of different
names. -/
theorem override_idempotent :
    (∀ s o r : Schema, s.override o = .ok r →
      r.override o = .ok r ∧
      (∀ service, r.endpoints.contains service =
        (s.endpoints.contains service || o.endpoints.contains service)) ∧
      (∀ service endpoint, (r.flow? service endpoint).isSome =
        ((s.flow? service endpoint).isSome || (o.flow? service endpoint).isSome)) ∧
      (∀ key, (r.entity? key).isSome = ((s.entity? key).isSome || (o.entity? key).isSome)) ∧
      (∀ service endpoint, o.flow? service endpoint = none →
        r.flow? service endpoint = s.flow? service endpoint) ∧
      (∀ service endpoint, s.flow? service endpoint = none →
        r.flow? service endpoint = o.flow? service endpoint) ∧
      (∀ key, o.entity? key = none → r.entity? key = s.entity? key) ∧
      ∀ key, s.entity? key = none → r.entity? key = o.entity? key) ∧
    ∀ s o : Schema, (∃ e, s.override o = .error e) ↔
      ∃ key a b, s.entity? key = some a ∧ o.entity? key = some b ∧ a.name ≠ b.name := by
  refine ⟨fun s o r h => ?_, fun s o => exists_combine_eq_error_iff⟩
  have hflow := flow?_of_combine h
  have hentity := entity?_of_combine h
  refine ⟨combine_combine_right h, contains_endpoints_of_combine h, ?_, ?_, ?_, ?_, ?_, ?_⟩
  · intro service endpoint
    rw [hflow, Dict.isSome_combine?]
  · intro key
    rw [hentity, Dict.isSome_combine?]
  · intro service endpoint ho
    rw [hflow, ho, Dict.combine?_none_right]
  · intro service endpoint hs
    rw [hflow, hs, Dict.combine?_none_left]
  · intro key ho
    rw [hentity, ho, Dict.combine?_none_right]
  · intro key hs
    rw [hentity, hs, Dict.combine?_none_left]

/-- Two endpoints and an entity, as they were inferred. -/
def inferred : Schema :=
  ((({} : Schema).insertFlow
      { service := "orders", endpoint := "list",
        queryParameters := .singleton "page" (.scalar .str) }).insertFlow
    { service := "orders", endpoint := "delete", method := "POST" }).insertEntity
    ⟨"order", .singleton "id" (.scalar .int)⟩

/-- Corrections of one of these endpoints, with a further endpoint and a further entity. -/
def corrections : Schema :=
  ((({} : Schema).insertFlow
      { service := "orders", endpoint := "list",
        queryParameters := .singleton "page" (.scalar .int) }).insertFlow
    { service := "users", endpoint := "get" }).insertEntity ⟨"user", ∅⟩

theorem override_idempotent_inferred : ∃ r, inferred.override corrections = .ok r ∧
    r.override corrections = .ok r ∧
    (r.flow? "users" "get").isSome = true ∧
    r.flow? "orders" "delete" = inferred.flow? "orders" "delete" ∧
    r.flow? "users" "get" = corrections.flow? "users" "get" ∧
    r.entity? "order" = inferred.entity? "order" ∧
    r.entity? "user" = corrections.entity? "user" := by
  obtain ⟨r, hr⟩ : ∃ r, inferred.override corrections = .ok r := ⟨_, rfl⟩
  obtain ⟨hagain, -, hflows, -, hflow, hflow', hentity, hentity'⟩ :=
    override_idempotent.1 inferred corrections r hr
  refine ⟨r, hr, hagain, ?_, hflow _ _ (by decide), hflow' _ _ (by decide), hentity _ (by decide),
    hentity' _ (by decide)⟩
  rw [hflows]
  decide

end Schema

end TrafficSchema
