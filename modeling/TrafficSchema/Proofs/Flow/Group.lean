import Mathlib.Data.List.Induction
import TrafficSchema.Proofs.Flow.Merge

/-!
# What groups of flows hold

Flows are sorted by a key that different endpoints may share. Since the sort is stable this does
not disturb the order within an endpoint (`FlowGroups.filter_sortFlows`), and the group of an
endpoint is the list of its flows as they were observed (`FlowGroups.at?_ofFlows`). Folding the
groups gives one flow for each endpoint that was seen (`FlowGroups.at?_fold_ofFlows`), and no other
service (`FlowGroups.contains_fold_iff`).
-/

namespace TrafficSchema

/-- Whether a flow belongs to an endpoint. -/
def Flow.isAt (service endpoint : String) (f : Flow) : Bool :=
  f.service = service ∧ f.endpoint = endpoint

@[simp] theorem Flow.isAt_iff {service endpoint : String} {f : Flow} :
    f.isAt service endpoint ↔ f.service = service ∧ f.endpoint = endpoint := by
  simp [isAt]

/-- Flows of one endpoint merge to a flow of that endpoint. -/
theorem Flow.isAt_merge {service endpoint : String} (mode : MergeMode) (f g : Flow)
    (hf : f.isAt service endpoint) (hg : g.isAt service endpoint) :
    (f.merge mode g).isAt service endpoint := by
  rw [isAt_iff] at *
  simp [merge, hf, hg, mergeName_self]

/-- Writing under the names of a flow touches the endpoint that it belongs to. -/
theorem Flow.at?_upsert {α : Type*} (d : Dict (Dict α)) (f : Flow) (g : Option α → α)
    (service endpoint : String) :
    (d.upsert f.service fun e => (e.getD ∅).upsert f.endpoint g).at? service endpoint =
      if f.isAt service endpoint then some (g (d.at? service endpoint))
      else d.at? service endpoint := by
  rw [Dict.at?_upsert_upsert]
  by_cases hf : f.isAt service endpoint
  · obtain ⟨rfl, rfl⟩ := isAt_iff.1 hf
    rw [if_pos ⟨rfl, rfl⟩, if_pos hf]
  · rw [if_neg hf, if_neg]
    rintro ⟨hservice, hendpoint⟩
    exact hf (isAt_iff.2 ⟨hservice.symm, hendpoint.symm⟩)

namespace FlowGroups

/-! ## Sorting -/

theorem sortFlows_perm (flows : List Flow) : (sortFlows flows).Perm flows :=
  List.mergeSort_perm flows _

/-- Sorting keeps the order of flows that all have the same sort key. -/
theorem filter_sortFlows (flows : List Flow) {p : Flow → Bool}
    (hp : ∀ f g, p f → p g → f.sortKey = g.sortKey) :
    (sortFlows flows).filter p = flows.filter p := by
  have htrans : ∀ f g h : Flow, decide (f.sortKey ≤ g.sortKey) → decide (g.sortKey ≤ h.sortKey) →
      decide (f.sortKey ≤ h.sortKey) := by
    intro f g h
    simp only [decide_eq_true_eq]
    exact String.le_trans
  have htotal : ∀ f g : Flow, decide (f.sortKey ≤ g.sortKey) || decide (g.sortKey ≤ f.sortKey) := by
    intro f g
    simpa using String.le_total f.sortKey g.sortKey
  have hkeys : (flows.filter p).Pairwise fun f g => decide (f.sortKey ≤ g.sortKey) := by
    refine List.pairwise_of_forall_mem_list fun f hf g hg => ?_
    rw [hp f g (List.mem_filter.1 hf).2 (List.mem_filter.1 hg).2]
    simp
  have hsub : (flows.filter p).Sublist (sortFlows flows) :=
    List.sublist_mergeSort htrans htotal hkeys List.filter_sublist
  have hfilter : (flows.filter p).Sublist ((sortFlows flows).filter p) := by
    simpa using hsub.filter p
  exact (hfilter.eq_of_length ((sortFlows_perm flows).filter p).length_eq.symm).symm

/-! ## Grouping -/

theorem at?_add (groups : FlowGroups) (f : Flow) (service endpoint : String) :
    (add groups f).at? service endpoint =
      if f.isAt service endpoint then some ((groups.at? service endpoint).getD [] ++ [f])
      else groups.at? service endpoint :=
  f.at?_upsert groups (fun flows => flows.getD [] ++ [f]) service endpoint

theorem at?_foldl_add (flows : List Flow) (service endpoint : String) :
    (flows.foldl add ∅).at? service endpoint =
      if flows.filter (Flow.isAt service endpoint) = [] then none
      else some (flows.filter (Flow.isAt service endpoint)) := by
  induction flows using List.reverseRecOn with
  | nil => rfl
  | append_singleton flows f ih =>
    rw [List.foldl_append, List.foldl_cons, List.foldl_nil, at?_add, ih, List.filter_append]
    by_cases hf : f.isAt service endpoint
    · simp only [hf, if_true, List.filter_cons_of_pos, List.filter_nil]
      by_cases hnil : flows.filter (Flow.isAt service endpoint) = [] <;> simp [hnil]
    · simp [hf]

/-- **The group of an endpoint is the list of its flows in the order of observation.** There is
no group for an endpoint that was not seen. -/
theorem at?_ofFlows (flows : List Flow) (service endpoint : String) :
    (ofFlows flows).at? service endpoint =
      if flows.filter (Flow.isAt service endpoint) = [] then none
      else some (flows.filter (Flow.isAt service endpoint)) := by
  have hkey : ∀ f g : Flow, f.isAt service endpoint → g.isAt service endpoint →
      f.sortKey = g.sortKey := by
    intro f g hf hg
    rw [Flow.isAt_iff] at hf hg
    simp [Flow.sortKey, hf, hg]
  rw [ofFlows, at?_foldl_add, filter_sortFlows flows hkey]

theorem at?_ofFlows_eq_some_iff {flows group : List Flow} {service endpoint : String} :
    (ofFlows flows).at? service endpoint = some group ↔
      (∃ f ∈ flows, f.isAt service endpoint) ∧
        group = flows.filter (Flow.isAt service endpoint) := by
  have hseen : (∃ f ∈ flows, f.isAt service endpoint) ↔
      flows.filter (Flow.isAt service endpoint) ≠ [] := by
    rw [ne_eq, List.filter_eq_nil_iff]
    push Not
    rfl
  rw [at?_ofFlows, hseen, Option.ite_none_left_eq_some, Option.some.injEq]
  exact and_congr_right fun _ => eq_comm

/-- No service is without endpoints. -/
theorem proper_ofFlows (flows : List Flow) : (ofFlows flows).Proper := by
  have hfold (l : List Flow) : (l.foldl add ∅).Proper := by
    induction l using List.reverseRecOn with
    | nil => exact Dict.proper_empty
    | append_singleton l f ih =>
      rw [List.foldl_append]
      exact ih.upsert_upsert f.service f.endpoint _
  exact hfold (sortFlows flows)

/-! ## Folding the groups -/

theorem foldGroup?_eq_reduce? (flows : List Flow) :
    foldGroup? flows = reduce? (Flow.merge .widen) flows := by
  cases flows <;> rfl

theorem at?_fold (groups : FlowGroups) (service endpoint : String) :
    groups.fold.at? service endpoint = (groups.at? service endpoint).bind foldGroup? := by
  simp only [Dict.at?, fold, Dict.get?_filterMap]
  cases groups.get? service with
  | none => rfl
  | some endpoints =>
    simp only [Option.bind_some]
    rw [← Dict.get?_filterMap fun _ group => foldGroup? group]
    split
    · rename_i hempty
      rw [Dict.isEmpty_iff.1 hempty]
      rfl
    · rfl

theorem proper_fold (groups : FlowGroups) : groups.fold.Proper := by
  intro service flows h
  simp only [fold, Dict.get?_filterMap, Option.bind_eq_some_iff, Option.ite_none_left_eq_some,
    Option.some.injEq] at h
  obtain ⟨_, -, hne, rfl⟩ := h
  rwa [Dict.isEmpty_iff] at hne

/-- The flow of an endpoint is the fold of all its flows. -/
theorem at?_fold_ofFlows (flows : List Flow) (service endpoint : String) :
    (ofFlows flows).fold.at? service endpoint =
      reduce? (Flow.merge .widen) (flows.filter (Flow.isAt service endpoint)) := by
  rw [at?_fold, at?_ofFlows]
  split
  · rename_i hnil
    rw [hnil]
    rfl
  · rw [Option.bind_some, foldGroup?_eq_reduce?]

theorem at?_fold_eq_some_iff {groups : FlowGroups} {service endpoint : String} {merged : Flow} :
    groups.fold.at? service endpoint = some merged ↔
      ∃ f rest, groups.at? service endpoint = some (f :: rest) ∧
        merged = rest.foldl (Flow.merge .widen) f := by
  rw [at?_fold, Option.bind_eq_some_iff]
  constructor
  · rintro ⟨_ | ⟨f, rest⟩, hgroup, hmerged⟩
    · cases hmerged
    · cases hmerged
      exact ⟨f, rest, hgroup, rfl⟩
  · rintro ⟨f, rest, hgroup, rfl⟩
    exact ⟨f :: rest, hgroup, rfl⟩

theorem at?_fold_ofFlows_eq_some_iff {flows : List Flow} {service endpoint : String}
    {merged : Flow} : (ofFlows flows).fold.at? service endpoint = some merged ↔
      ∃ f rest, flows.filter (Flow.isAt service endpoint) = f :: rest ∧
        merged = rest.foldl (Flow.merge .widen) f := by
  rw [at?_fold_eq_some_iff]
  refine exists₂_congr fun f rest => and_congr_left fun _ => ?_
  rw [at?_ofFlows]
  split
  · rename_i hnil
    rw [hnil]
    exact ⟨nofun, nofun⟩
  · rw [Option.some.injEq]

/-- The services that are left are those with a group that is not empty. -/
theorem contains_fold_iff {groups : FlowGroups} {service : String} :
    groups.fold.contains service ↔
      ∃ endpoint group, groups.at? service endpoint = some group ∧ group ≠ [] := by
  rw [(proper_fold groups).contains_iff]
  simp only [at?_fold_eq_some_iff]
  constructor
  · rintro ⟨endpoint, _, f, rest, hgroup, -⟩
    exact ⟨endpoint, f :: rest, hgroup, List.cons_ne_nil f rest⟩
  · rintro ⟨endpoint, group, hgroup, hne⟩
    obtain ⟨f, rest, rfl⟩ := List.exists_cons_of_ne_nil hne
    exact ⟨endpoint, _, f, rest, hgroup, rfl⟩

/-- **Grouping and folding lose, invent and reorder nothing.** Of any flows there are groups for
just the endpoints that were seen, each with the flows of its endpoint in their order, and these
endpoints have the flows of their groups widened from left to right. Of any groups at all just the
empty ones are dropped, with the services that have no other. -/
theorem fold_ofFlows :
    (∀ flows : List Flow, (ofFlows flows).Proper ∧ (ofFlows flows).fold.Proper ∧
      ∀ service endpoint,
        (∀ group, (ofFlows flows).at? service endpoint = some group ↔
          (∃ f ∈ flows, f.isAt service endpoint) ∧
            group = flows.filter (Flow.isAt service endpoint)) ∧
        ∀ merged, (ofFlows flows).fold.at? service endpoint = some merged ↔
          ∃ f rest, flows.filter (Flow.isAt service endpoint) = f :: rest ∧
            merged = rest.foldl (Flow.merge .widen) f) ∧
    ∀ groups : FlowGroups, groups.fold.Proper ∧
      (∀ service endpoint merged, groups.fold.at? service endpoint = some merged ↔
        ∃ f rest, groups.at? service endpoint = some (f :: rest) ∧
          merged = rest.foldl (Flow.merge .widen) f) ∧
      ∀ service, groups.fold.contains service ↔
        ∃ endpoint group, groups.at? service endpoint = some group ∧ group ≠ [] := by
  exact ⟨fun flows => ⟨proper_ofFlows flows, proper_fold _, fun service endpoint =>
    ⟨fun _ => at?_ofFlows_eq_some_iff, fun _ => at?_fold_ofFlows_eq_some_iff⟩⟩,
    fun groups => ⟨proper_fold groups, fun _ _ _ => at?_fold_eq_some_iff,
      fun _ => contains_fold_iff⟩⟩

end FlowGroups

end TrafficSchema
