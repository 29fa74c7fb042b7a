import TrafficSchema.Proofs.Capture.Observations
import TrafficSchema.Proofs.Schema.Join
import TrafficSchema.Proofs.Schema.Notation
import TrafficSchema.Proofs.Schema.Override

/-!
# Names and keys

Schemas come from captures and from files. They can be joined and applied to each other, and flows
and entities can be put into them (`Schema.Built`). All of these keep every entity under its own
name, so that entities which are merged have the same name. This is why no step ever fails because
of a conflict of names.

Flows are different, since a file may hold a flow under any keys. If the files do not do this
(`Schema.Document.Consistent`) every flow stands under its own names (`Schema.Named`). Merging keeps
that, whichever of the two flows gives the names.

Both are cases of one induction (`Schema.Built.invariant`), and `Schema.Built.identity` puts them
together.
-/

namespace TrafficSchema

namespace Schema

variable {s t u : Schema} {mode : MergeMode} {files : String → Prop}

/-! ## Flows -/

/-- Every flow stands under its own names. -/
def Named (s : Schema) : Prop :=
  ∀ service endpoint f, s.flow? service endpoint = some f → f.isAt service endpoint

theorem Named.insertFlow (hs : s.Named) (f : Flow) : (s.insertFlow f).Named := by
  intro service endpoint g hg
  rw [flow?_insertFlow] at hg
  split at hg
  · rename_i hat
    cases hg
    exact hat
  · exact hs service endpoint g hg

theorem Named.of_combine (hs : s.Named) (ht : t.Named) (h : combine mode s t = .ok u) :
    u.Named := by
  intro service endpoint f hf
  rw [flow?_of_combine h] at hf
  exact Dict.combine?_invariant (P := fun f => f.isAt service endpoint) (Flow.isAt_merge mode)
    (hs service endpoint) (ht service endpoint) hf

/-! ## Files -/

/-- No flow names another endpoint than the keys it stands under. A name that is missing in the
file, or `null`, is read as the empty one. -/
def Document.Consistent (d : Document) : Prop :=
  ∀ service endpoint f, d.endpoints.at? service endpoint = some f →
    (f.service = "" ∨ f.service = service) ∧ (f.endpoint = "" ∨ f.endpoint = endpoint)

/-- Where the names agree with the keys as far as they are given, the keys complete them. -/
theorem Document.Consistent.named {d : Document} (h : d.Consistent) : (ofDocument d).Named := by
  intro service endpoint f hf
  have hat : (d.endpoints.at? service endpoint).map (fillNames service endpoint) = some f :=
    (Dict.at?_map fillNames d.endpoints service endpoint).symm.trans hf
  obtain ⟨g, hg, rfl⟩ := Option.map_eq_some_iff.1 hat
  obtain ⟨hservice, hendpoint⟩ := h service endpoint g hg
  have hname {name key : String} (h : name = "" ∨ name = key) :
      (if name = "" then key else name) = key := by
    split
    · rfl
    · exact h.resolve_left ‹_›
  exact Flow.isAt_iff.2 ⟨hname hservice, hname hendpoint⟩

/-! ## Any number of steps -/

/-- A schema that was made from captures and from the given files by putting flows and entities
into schemas, joining them and applying one to another. -/
inductive Built (files : String → Prop) : Schema → Prop
  | capture {config : Config} {exchanges : List Exchange} {s : Schema}
      (h : captureSchema config exchanges = .ok s) : Built files s
  | file {text : String} {s : Schema} (hfile : files text) (h : ofText text = .ok s) :
      Built files s
  | insertFlow {s : Schema} (hs : Built files s) (f : Flow) : Built files (s.insertFlow f)
  | insertEntity {s : Schema} (hs : Built files s) (e : Entity) : Built files (s.insertEntity e)
  | merge {s t u : Schema} (hs : Built files s) (ht : Built files t) (h : s.merge t = .ok u) :
      Built files u
  | mergeAll {parts : List Schema} {u : Schema} (hparts : ∀ s ∈ parts, Built files s)
      (h : mergeAll parts = .ok u) : Built files u
  | override {s t u : Schema} (hs : Built files s) (ht : Built files t)
      (h : s.override t = .ok u) : Built files u

/-- **What holds of captures and of files, and is kept by each step, holds of every schema** that
was built. -/
theorem Built.invariant {P : Schema → Prop}
    (hcapture : ∀ s flows entities, s.Summarizes flows entities → P s)
    (hfile : ∀ text s, files text → ofText text = .ok s → P s)
    (hflow : ∀ s f, P s → P (s.insertFlow f)) (hentity : ∀ s e, P s → P (s.insertEntity e))
    (hcombine : ∀ mode s t u, P s → P t → combine mode s t = .ok u → P u)
    (hs : Built files s) : P s := by
  have hmerge (s t u : Schema) (hs : P s) (ht : P t) (h : s.merge t = .ok u) : P u :=
    merge_invariant hs ht (hcombine .widen s t u hs ht) h
  induction hs with
  | capture h => exact hcapture _ _ _ (summarizes_of_captureSchema h)
  | file htext h => exact hfile _ _ htext h
  | insertFlow _ f hs => exact hflow _ f hs
  | insertEntity _ e hs => exact hentity _ e hs
  | merge _ _ h hs ht => exact hmerge _ _ _ hs ht h
  | mergeAll _ h ih =>
    exact mergeAll_invariant (hcapture {} [] [] .nil) hmerge ih h
  | override _ _ h hs ht => exact hcombine .override _ _ _ hs ht h

theorem Built.keyed (hs : Built files s) : Entity.Keyed s.entities := by
  refine hs.invariant (P := fun s => Entity.Keyed s.entities) ?_ ?_ ?_ ?_ ?_
  · exact fun s flows entities hsum => hsum.keyed
  · exact fun text s _ htext => (of_ofText_eq_ok htext).1.keyed
  · exact fun s f hs => hs
  · exact fun s e hs => keyed_insertEntity hs e
  · exact fun mode s t u hs ht h => keyed_of_combine hs ht h

theorem Built.named (hfiles : ∀ text d, files text → Document.ofText text = .ok d → d.Consistent)
    (hs : Built files s) : s.Named := by
  refine hs.invariant ?_ ?_ ?_ ?_ ?_
  · exact fun s flows entities hsum service endpoint f => hsum.isAt_of_flow?
  · intro text s htext h
    obtain ⟨d, hd, rfl⟩ := exists_document_of_ofText h
    exact (hfiles text d htext hd).named
  · exact fun s f hs => hs.insertFlow f
  · exact fun s e hs => hs
  · exact fun mode s t u hs ht h => hs.of_combine ht h

/-- **No conflict of names arises from built schemas.** Every entity of such a schema stands under
its own name, and captures, joins and corrections always give a schema. If the files hold no flow
under keys that it contradicts, every flow of a built schema carries just the keys it stands
under. -/
theorem Built.identity (files : String → Prop) :
    (∀ s, Built files s → ∀ key e, s.entity? key = some e → e.name = key) ∧
    (∀ c : Capture, ∃ s, c.schema = .ok s) ∧
    (∀ config exchanges, ∃ s, captureSchema config exchanges = .ok s) ∧
    (∀ s t, Built files s → Built files t →
      (∃ u, s.merge t = .ok u) ∧ ∃ u, s.override t = .ok u) ∧
    (∀ parts : List Schema, (∀ s ∈ parts, Built files s) → ∃ u, Schema.mergeAll parts = .ok u) ∧
    ((∀ text d, files text → Document.ofText text = .ok d → d.Consistent) →
      ∀ s, Built files s → ∀ service endpoint f, s.flow? service endpoint = some f →
        f.service = service ∧ f.endpoint = endpoint) := by
  have hcombine (mode : MergeMode) (s t : Schema) (hs : Built files s) (ht : Built files t) :
      ∃ u, combine mode s t = .ok u := exists_combine_eq_ok mode hs.keyed ht.keyed
  refine ⟨fun s hs => hs.keyed, fun c => ?_, fun config exchanges => ?_, fun s t hs ht => ?_,
    fun parts hparts => ?_, fun hfiles s hs service endpoint f hf => ?_⟩
  · obtain ⟨s, hs, -⟩ := Capture.schema_summarizes c
    exact ⟨s, hs⟩
  · obtain ⟨s, hs, -⟩ := captureSchema_summarizes config exchanges
    exact ⟨s, hs⟩
  · exact ⟨exists_merge_eq_ok (hcombine .widen s t hs ht), hcombine .override s t hs ht⟩
  · refine exists_mergeAll_eq_ok (P := Built files) (fun s t hs ht => ?_) hparts
    obtain ⟨u, hu⟩ := exists_merge_eq_ok (hcombine .widen s t hs ht)
    exact ⟨u, hu, .merge hs ht hu⟩
  · exact Flow.isAt_iff.1 (hs.named hfiles service endpoint f hf)

/-- A file with an entity and a flow, which does not say its endpoint and says `null` for its
service. -/
def ordersFile : String :=
  Json.Value.text .compact <| .object
    [("endpoints", .object [("orders", .object [("list", .object [("service", .null)])])]),
      ("entities", .object [("order", .object [("id", .string "Int")])])]

/-- The flow in the file contradicts no key. -/
theorem consistent_ordersFile {d : Document} (h : Document.ofText ordersFile = .ok d) :
    d.Consistent := by
  have hread : (Document.ofText ordersFile).toOption.map (·.endpoints) =
      some (({} : Schema).putFlow "orders" "list" {}).endpoints := by decide +kernel
  rw [h] at hread
  simp only [Except.toOption, Option.map_some, Option.some.injEq] at hread
  intro service endpoint f hf
  rw [hread] at hf
  change ((∅ : Endpoints).upsert "orders" fun flows =>
    (flows.getD ∅).upsert "list" fun _ => {}).at? service endpoint = some f at hf
  rw [Dict.at?_upsert_upsert] at hf
  split at hf
  · cases hf
    exact ⟨.inl rfl, .inl rfl⟩
  · cases hf

theorem Built.identity_ordersFile : ∃ s t m u w f e,
    (∀ text d, text = ordersFile → Document.ofText text = .ok d → d.Consistent) ∧
    Built (· = ordersFile) s ∧ Built (· = ordersFile) t ∧ s.merge t = .ok m ∧
    s.override t = .ok u ∧ Built (· = ordersFile) u ∧ Schema.mergeAll [s, t, u] = .ok w ∧
    u.flow? "orders" "list" = some f ∧ f.service = "orders" ∧ f.endpoint = "list" ∧
    u.entity? "order" = some e ∧ e.name = "order" := by
  obtain ⟨hkeyed, -, hcapture, hmerge, hmergeAll, hnamed⟩ := Built.identity (· = ordersFile)
  have hfiles (text : String) (d : Document) (htext : text = ordersFile)
      (hd : Document.ofText text = .ok d) : d.Consistent :=
    consistent_ordersFile (htext ▸ hd)
  obtain ⟨s, hs, hflow, hentity⟩ : ∃ s, ofText ordersFile = .ok s ∧
      (s.flow? "orders" "list").isSome ∧ (s.entity? "order").isSome := by
    have hread : (ofText ordersFile).toOption.any (fun s => (s.flow? "orders" "list").isSome &&
        (s.entity? "order").isSome) := by decide +kernel
    cases htext : ofText ordersFile with
    | error e =>
      rw [htext] at hread
      cases hread
    | ok s =>
      rw [htext] at hread
      exact ⟨s, rfl, Bool.and_eq_true_iff.1 hread⟩
  obtain ⟨t, ht⟩ := hcapture {} [{ method := "GET", path := "/orders/list" }]
  have hsbuilt : Built (· = ordersFile) s := .file rfl hs
  have htbuilt : Built (· = ordersFile) t := .capture ht
  obtain ⟨⟨m, hm⟩, u, hu⟩ := hmerge s t hsbuilt htbuilt
  have hubuilt : Built (· = ordersFile) u := .override hsbuilt htbuilt hu
  obtain ⟨w, hw⟩ := hmergeAll [s, t, u] (by simp [hsbuilt, htbuilt, hubuilt])
  obtain ⟨f, hf⟩ : ∃ f, u.flow? "orders" "list" = some f := by
    rw [← Option.isSome_iff_exists, flow?_of_combine hu, Dict.isSome_combine?, hflow, Bool.true_or]
  obtain ⟨e, he⟩ : ∃ e, u.entity? "order" = some e := by
    rw [← Option.isSome_iff_exists, entity?_of_combine hu, Dict.isSome_combine?, hentity,
      Bool.true_or]
  obtain ⟨hservice, hendpoint⟩ := hnamed hfiles u hubuilt _ _ f hf
  exact ⟨s, t, m, u, w, f, e, hfiles, hsbuilt, htbuilt, hm, hu, hubuilt, hw, hf, hservice,
    hendpoint, he, hkeyed u hubuilt _ e he⟩

end Schema

end TrafficSchema
