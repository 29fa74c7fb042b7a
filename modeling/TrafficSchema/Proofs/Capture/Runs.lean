import TrafficSchema.Proofs.Capture.Observations
import TrafficSchema.Proofs.Schema.Widening

/-!
# Captures of the same exchanges

A capture may be made in parts, whose schemas are merged later. Merging starts with the schema of
the first part, and with every further part the result summarizes the observations of all parts so
far (`foldlM_merge_summarizes`). Since these determine it, it is the schema of a single capture
(`captureSchema_flatten`).

A capture of more exchanges widens the schema. So captures of the same exchanges in different
orders widen each other, and observe the same (`captureSchema_monotone`).
-/

namespace TrafficSchema

open Capture

variable {config : Config}

/-! ## Captures in parts -/

theorem mapM_captureSchema_cons {xs : List Exchange} {chunks : List (List Exchange)} {s : Schema}
    {parts : List Schema} (hs : captureSchema config xs = .ok s)
    (hparts : chunks.mapM (captureSchema config) = .ok parts) :
    (xs :: chunks).mapM (captureSchema config) = .ok (s :: parts) := by
  rw [List.mapM_cons, hs, hparts]
  rfl

/-- Merging the schemas of further captures into that of a first one. -/
theorem foldlM_merge_summarizes {s : Schema} {xs : List Exchange}
    (hs : s.Summarizes (observedFlows config xs) (observedEntities config xs))
    (chunks : List (List Exchange)) :
    ∃ parts whole, chunks.mapM (captureSchema config) = .ok parts ∧
      parts.foldlM Schema.merge s = .ok whole ∧
      whole.Summarizes (observedFlows config (xs ++ chunks.flatten))
        (observedEntities config (xs ++ chunks.flatten)) := by
  induction chunks generalizing s xs with
  | nil => exact ⟨[], s, rfl, rfl, by simpa using hs⟩
  | cons ys chunks ih =>
    obtain ⟨t, ht, hsum⟩ := captureSchema_summarizes config ys
    obtain ⟨u, hu, husum⟩ := hs.merge hsum observedEntities_eq_nil observedEntities_eq_nil
    rw [← observedFlows_append, ← observedEntities_append] at husum
    obtain ⟨parts, whole, hparts, hwhole, hall⟩ := ih husum
    refine ⟨t :: parts, whole, mapM_captureSchema_cons ht hparts, ?_, ?_⟩
    · rw [List.foldlM_cons, hu]
      exact hwhole
    · rwa [List.flatten_cons, ← List.append_assoc]

/-- **Splitting a capture does not change its schema**: if exchanges are captured in chunks, and
the schemas of the chunks are merged in the same order, the result is the schema of all exchanges
together. Neither fails. -/
theorem captureSchema_flatten (config : Config) (chunks : List (List Exchange)) :
    ∃ parts whole, chunks.mapM (captureSchema config) = .ok parts ∧
      Schema.mergeAll parts = .ok whole ∧
      captureSchema config chunks.flatten = .ok whole := by
  cases chunks with
  | nil =>
    obtain ⟨s, hs, hsum⟩ := captureSchema_summarizes config []
    have hempty : Schema.Summarizes {} (observedFlows config []) (observedEntities config []) :=
      ⟨Dict.proper_empty, fun _ _ => rfl, fun _ => rfl⟩
    refine ⟨[], {}, rfl, rfl, ?_⟩
    rw [List.flatten_nil, hs, hsum.unique hempty]
  | cons xs chunks =>
    obtain ⟨s, hs, hsum⟩ := captureSchema_summarizes config xs
    obtain ⟨parts, whole, hparts, hwhole, hall⟩ := foldlM_merge_summarizes hsum chunks
    obtain ⟨t, ht, htsum⟩ := captureSchema_summarizes config (xs ++ chunks.flatten)
    refine ⟨s :: parts, whole, mapM_captureSchema_cons hs hparts, hwhole, ?_⟩
    rw [List.flatten_cons, ht, htsum.unique hall]

/-! ## Captures of more exchanges -/

theorem captureSchema_widenedBy (config : Config) {xs ys : List Exchange} (h : xs ⊆ ys) :
    ∃ s t, captureSchema config xs = .ok s ∧ captureSchema config ys = .ok t ∧
      s.endpoints.Proper ∧ t.endpoints.Proper ∧ s.WidenedBy t := by
  obtain ⟨s, hs, hsum⟩ := captureSchema_summarizes config xs
  obtain ⟨t, ht, htsum⟩ := captureSchema_summarizes config ys
  exact ⟨s, t, hs, ht, hsum.proper, htsum.proper,
    hsum.widenedBy htsum (observedFlows_subset h) (observedEntities_subset h)⟩

/-- **The order of observation does not matter, and more observations only widen a schema.**
Exchanges in a different order give the same endpoints and entities with the same shapes; only
the methods, the content types and the references to exchanges may differ. Further exchanges, put
anywhere between the others, remove nothing and lower no shape. -/
theorem captureSchema_monotone (config : Config) :
    (∀ xs ys : List Exchange, xs.Perm ys → ∃ s t, captureSchema config xs = .ok s ∧
      captureSchema config ys = .ok t ∧ s.observed = t.observed) ∧
    (∀ xs zs : List Exchange, xs.Sublist zs → ∃ s t, captureSchema config xs = .ok s ∧
      captureSchema config zs = .ok t ∧ s.WidenedBy t) := by
  constructor
  · intro xs ys h
    obtain ⟨s, t, hs, ht, hsp, htp, hst⟩ := captureSchema_widenedBy config h.subset
    obtain ⟨t', s', ht', hs', -, -, hts⟩ := captureSchema_widenedBy config h.symm.subset
    rw [hs, Except.ok.injEq] at hs'
    rw [ht, Except.ok.injEq] at ht'
    subst hs' ht'
    exact ⟨s, t, hs, ht, hst.antisymm hsp htp hts⟩
  · intro xs zs h
    obtain ⟨s, t, hs, ht, -, -, hst⟩ := captureSchema_widenedBy config h.subset
    exact ⟨s, t, hs, ht, hst⟩

/-- An exchange of which only the request line is known. -/
def requestOnly (path : String) : Exchange := { method := "GET", path := path }

theorem captureSchema_monotone_pages :
    ([requestOnly "/orders/list?page=1", requestOnly "/orders/list"].Perm
        [requestOnly "/orders/list", requestOnly "/orders/list?page=1"] ∧
      ∃ s t,
        captureSchema {} [requestOnly "/orders/list?page=1", requestOnly "/orders/list"] = .ok s ∧
        captureSchema {} [requestOnly "/orders/list", requestOnly "/orders/list?page=1"] = .ok t ∧
        s.observed = t.observed) ∧
    [requestOnly "/orders/list"].Sublist
        [requestOnly "/orders/list?page=1", requestOnly "/orders/list"] ∧
      ∃ s t, captureSchema {} [requestOnly "/orders/list"] = .ok s ∧
        captureSchema {} [requestOnly "/orders/list?page=1", requestOnly "/orders/list"] = .ok t ∧
        s.WidenedBy t := by
  have hperm := List.Perm.swap (requestOnly "/orders/list") (requestOnly "/orders/list?page=1") []
  have hsub := List.sublist_cons_self (requestOnly "/orders/list?page=1")
    [requestOnly "/orders/list"]
  refine ⟨⟨hperm, ?_⟩, hsub, ?_⟩
  · exact (captureSchema_monotone {}).1 _ _ hperm
  · exact (captureSchema_monotone {}).2 _ _ hsub

end TrafficSchema
