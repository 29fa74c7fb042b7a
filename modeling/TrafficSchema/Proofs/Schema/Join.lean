import TrafficSchema.Proofs.Schema.Combine

/-!
# Joining schemas

A schema without endpoints counts as nothing when schemas are joined, whatever entities it has;
two schemas with endpoints are combined (`Schema.merge_eq_combine`). What is joined from schemas
with endpoints has endpoints too, so which of the two happens does not depend on the grouping.

So what is kept when two schemas are combined is kept when they are joined, and when any number of
them is (`Schema.merge_invariant`, `Schema.mergeAll_invariant`).

Joining is associative, failures included, and the result absorbs both schemas it was joined from
(`Schema.merge_assoc_absorb`).
-/

namespace TrafficSchema

namespace Schema

variable {s t u m w : Schema}

/-! ## Schemas without endpoints -/

theorem merge_eq_left (ht : t.endpoints.isEmpty) : s.merge t = .ok s := if_pos ht

theorem merge_eq_right (hs : s.endpoints.isEmpty) (ht : ¬ t.endpoints.isEmpty) :
    s.merge t = .ok t := by
  rw [merge, if_neg ht, if_pos hs]

theorem merge_eq_combine (hs : ¬ s.endpoints.isEmpty) (ht : ¬ t.endpoints.isEmpty) :
    s.merge t = combine .widen s t := by
  rw [merge, if_neg ht, if_neg hs]

/-- **What two schemas can be joined to**: one of them, or both combined. -/
theorem merge_cases (h : s.merge t = .ok u) : u = s ∨ u = t ∨ combine .widen s t = .ok u := by
  by_cases ht : t.endpoints.isEmpty
  · rw [merge_eq_left ht, Except.ok.injEq] at h
    exact .inl h.symm
  · by_cases hs : s.endpoints.isEmpty
    · rw [merge_eq_right hs ht, Except.ok.injEq] at h
      exact .inr (.inl h.symm)
    · rw [merge_eq_combine hs ht] at h
      exact .inr (.inr h)

/-- What holds of two schemas, and of both combined, holds of what they are joined to. -/
theorem merge_invariant {P : Schema → Prop} (hs : P s) (ht : P t)
    (hcombine : combine .widen s t = .ok u → P u) (h : s.merge t = .ok u) : P u := by
  obtain rfl | rfl | h := merge_cases h
  · exact hs
  · exact ht
  · exact hcombine h

/-- Schemas that can be combined can be joined. -/
theorem exists_merge_eq_ok (h : ∃ u, combine .widen s t = .ok u) : ∃ u, s.merge t = .ok u := by
  unfold merge
  split
  · exact ⟨s, rfl⟩
  · split
    · exact ⟨t, rfl⟩
    · exact h

/-- What is combined from schemas with endpoints has endpoints. -/
theorem not_isEmpty_of_combine {mode : MergeMode} (hs : ¬ s.endpoints.isEmpty)
    (h : combine mode s t = .ok u) : ¬ u.endpoints.isEmpty := by
  obtain ⟨-, rfl⟩ := combine_eq_ok_iff.1 h
  exact fun hu => hs ((Dict.isEmpty_unionWith _ s.endpoints t.endpoints).1 hu).1

/-! ## Any number of schemas -/

/-- What holds of nothing and of all parts, and is kept when two schemas are joined, holds of what
the parts are joined to. -/
theorem mergeAll_invariant {P : Schema → Prop} {parts : List Schema} (hnone : P {})
    (hmerge : ∀ s t u, P s → P t → s.merge t = .ok u → P u) (hparts : ∀ s ∈ parts, P s)
    (h : mergeAll parts = .ok u) : P u := by
  cases parts with
  | nil =>
    cases h
    exact hnone
  | cons s rest =>
    refine foldlM_invariant (fun t ht a b ha hb => ?_) (hparts s List.mem_cons_self) h
    exact hmerge a t b ha (hparts t (List.mem_cons_of_mem s ht)) hb

/-- Parts can be joined if any two schemas can that have a property which is kept then. -/
theorem exists_mergeAll_eq_ok {P : Schema → Prop} {parts : List Schema}
    (hmerge : ∀ s t, P s → P t → ∃ u, s.merge t = .ok u ∧ P u) (hparts : ∀ s ∈ parts, P s) :
    ∃ u, mergeAll parts = .ok u := by
  cases parts with
  | nil => exact ⟨{}, rfl⟩
  | cons s rest =>
    refine exists_foldlM_eq_ok (fun t ht a ha => ?_) (hparts s List.mem_cons_self)
    exact hmerge a t ha (hparts t (List.mem_cons_of_mem s ht))

/-! ## Laws -/

theorem merge_self (s : Schema) : s.merge s = .ok s := by
  by_cases hs : s.endpoints.isEmpty
  · exact merge_eq_left hs
  · rw [merge_eq_combine hs hs, combine_self]

/-- The grouping does not matter if some schema has no endpoints. -/
theorem bind_merge_eq_ok_iff_of_isEmpty (h : s.endpoints.isEmpty ∨ t.endpoints.isEmpty ∨
    u.endpoints.isEmpty) : (s.merge t >>= fun m => m.merge u) = .ok w ↔
      (t.merge u >>= fun m => s.merge m) = .ok w := by
  by_cases ht : t.endpoints.isEmpty
  · rw [merge_eq_left (s := s) ht]
    change s.merge u = .ok w ↔ _
    by_cases hu : u.endpoints.isEmpty
    · rw [merge_eq_left (s := t) hu]
      change s.merge u = .ok w ↔ s.merge t = .ok w
      rw [merge_eq_left hu, merge_eq_left ht]
    · rw [merge_eq_right ht hu]
      rfl
  · by_cases hu : u.endpoints.isEmpty
    · rw [merge_eq_left (s := t) hu]
      change _ ↔ s.merge t = .ok w
      simp only [bind_eq_ok_iff, merge_eq_left hu, Except.ok.injEq, exists_eq_right]
    · have hs : s.endpoints.isEmpty := by tauto
      rw [merge_eq_right hs ht]
      change t.merge u = .ok w ↔ _
      rw [merge_eq_combine ht hu, bind_eq_ok_iff]
      -- what `t` and `u` are combined to has endpoints, so it is taken as it is
      have hmerge (m : Schema) (hm : combine .widen t u = .ok m) : s.merge m = .ok m :=
        merge_eq_right hs (not_isEmpty_of_combine ht hm)
      constructor
      · exact fun h => ⟨w, h, hmerge w h⟩
      · rintro ⟨m, hm, hw⟩
        rw [hmerge m hm, Except.ok.injEq] at hw
        rwa [← hw]

/-- Joining gives the same schema in either grouping, if it gives one at all. -/
theorem bind_merge_eq_ok_iff : (s.merge t >>= fun m => m.merge u) = .ok w ↔
    (t.merge u >>= fun m => s.merge m) = .ok w := by
  by_cases h : s.endpoints.isEmpty ∨ t.endpoints.isEmpty ∨ u.endpoints.isEmpty
  · exact bind_merge_eq_ok_iff_of_isEmpty h
  · push Not at h
    obtain ⟨hs, ht, hu⟩ := h
    have hleft : (s.merge t >>= fun m => m.merge u) = .ok w ↔
        (combine .widen s t >>= fun m => combine .widen m u) = .ok w := by
      rw [merge_eq_combine hs ht, bind_eq_ok_iff, bind_eq_ok_iff]
      refine exists_congr fun m => and_congr_right fun hm => ?_
      rw [merge_eq_combine (not_isEmpty_of_combine hs hm) hu]
    have hright : (t.merge u >>= fun m => s.merge m) = .ok w ↔
        (combine .widen t u >>= fun m => combine .widen s m) = .ok w := by
      rw [merge_eq_combine ht hu, bind_eq_ok_iff, bind_eq_ok_iff]
      refine exists_congr fun m => and_congr_right fun hm => ?_
      rw [merge_eq_combine hs (not_isEmpty_of_combine ht hm)]
    rw [hleft, hright, combine_widen_assoc]

/-- A schema that was joined from two others absorbs both. -/
theorem merge_absorb (h : s.merge t = .ok m) : m.merge s = .ok m ∧ m.merge t = .ok m := by
  by_cases ht : t.endpoints.isEmpty
  · rw [merge_eq_left ht, Except.ok.injEq] at h
    subst h
    exact ⟨merge_self s, merge_eq_left ht⟩
  · by_cases hs : s.endpoints.isEmpty
    · rw [merge_eq_right hs ht, Except.ok.injEq] at h
      subst h
      exact ⟨merge_eq_left hs, merge_self t⟩
    · rw [merge_eq_combine hs ht] at h
      have hm := not_isEmpty_of_combine hs h
      rw [merge_eq_combine hm hs, merge_eq_combine hm ht]
      exact ⟨combine_widen_combine_left h, combine_combine_right h⟩

/-- **Joining is associative**, failures included, and **absorbing**: joining three schemas fails in
one grouping just if it fails in the other and gives the same schema otherwise, and joining a
result once more to either of the schemas it was joined from changes nothing. -/
theorem merge_assoc_absorb :
    (∀ s t u : Schema,
      ((∃ e, (s.merge t >>= fun m => m.merge u) = .error e) ↔
        ∃ e, (t.merge u >>= fun m => s.merge m) = .error e) ∧
      ∀ v w, (s.merge t >>= fun m => m.merge u) = .ok v →
        (t.merge u >>= fun m => s.merge m) = .ok w → v = w) ∧
    ∀ s t m : Schema, s.merge t = .ok m → m.merge s = .ok m ∧ m.merge t = .ok m := by
  refine ⟨fun s t u => ⟨?_, fun v w hv hw => ?_⟩, fun s t m => merge_absorb⟩
  · simp only [exists_eq_error_iff, ne_eq, bind_merge_eq_ok_iff]
  · rw [bind_merge_eq_ok_iff, hw, Except.ok.injEq] at hv
    exact hv.symm

/-- A schema with one endpoint, which has one query parameter, and one entity. -/
def single (service parameter : String) (tag : Tag) (capture : String) : Schema :=
  (({} : Schema).insertFlow
      { service := service, endpoint := "list", capture := some capture,
        queryParameters := .singleton parameter (.scalar tag) }).insertEntity
    ⟨service, .singleton parameter (.scalar tag)⟩

/-- Orders, seen with numbered pages. -/
def numberedOrders : Schema := single "orders" "page" .int "1"

/-- Orders, seen with pages that have names. -/
def namedOrders : Schema := single "orders" "page" .str "2"

/-- Users. -/
def users : Schema := single "users" "id" .int "3"

theorem merge_assoc_absorb_orders :
    ∃ v m, (numberedOrders.merge namedOrders >>= fun m => m.merge users) = .ok v ∧
      (namedOrders.merge users >>= fun m => numberedOrders.merge m) = .ok v ∧
      numberedOrders.merge namedOrders = .ok m ∧
      m.merge numberedOrders = .ok m ∧ m.merge namedOrders = .ok m := by
  obtain ⟨v, hv⟩ : ∃ v, (numberedOrders.merge namedOrders >>= fun m => m.merge users) = .ok v :=
    ⟨_, rfl⟩
  obtain ⟨w, hw⟩ : ∃ w, (namedOrders.merge users >>= fun m => numberedOrders.merge m) = .ok w :=
    ⟨_, rfl⟩
  obtain ⟨m, hm⟩ : ∃ m, numberedOrders.merge namedOrders = .ok m := ⟨_, rfl⟩
  have hvw : v = w := (merge_assoc_absorb.1 numberedOrders namedOrders users).2 v w hv hw
  exact ⟨v, m, hv, hvw ▸ hw, hm, merge_assoc_absorb.2 numberedOrders namedOrders m hm⟩

end Schema

end TrafficSchema
