import Mathlib.Data.List.Induction
import TrafficSchema.Proofs.Xml.Tree

/-!
# The first fault of a document

Whether an event is a fault depends on the events before it only through the number of elements that
are open (`openCount`) and on whether there has been a root element (`Event.Follows`). A run goes
through just the events that are free of faults (`exists_foldlM_step_iff`), so it fails at the first
fault, and it reports an element as too deep just if this is where the first fault is
(`shapeOfEvents_eq_tooDeep_iff`).
-/

namespace TrafficSchema.Xml

/-! ## Faults -/

namespace Event

/-- The attributes of the element that begins with an event. -/
def attributes? : Event → Option (List Attribute)
  | opened _ attributes => some attributes
  | emptied _ attributes => some attributes
  | _ => none

/-- Whether an element is opened that has to be closed later. -/
def isOpening : Event → Bool
  | opened _ _ => true
  | _ => false

end Event

/-- The number of elements that are open after the given events. -/
def openCount (events : List Event) : Nat := events.countP Event.isOpening - events.count .closed

/-- Whether an element with the given attributes can begin after some events: its depth is within
the limit, it is the only one that is in no other, and its attributes are well formed. -/
structure Begins (limit : Nat) (before : List Event) (attributes : List Attribute) : Prop where
  depth : openCount before < limit
  root : openCount before = 0 → ∀ event ∈ before, event.attributes? = none
  wellFormed : ∃ pairs, attributes = Attribute.pairs pairs

/-- Whether an event is no fault after the given ones. -/
def Event.Follows (limit : Nat) (before : List Event) : Event → Prop
  | opened _ attributes => Begins limit before attributes
  | emptied _ attributes => Begins limit before attributes
  | closed => 0 < openCount before
  | text => 0 < openCount before
  | skipped => True
  | fault => False

/-- None of the events is a fault. -/
def FaultFree (limit : Nat) (events : List Event) : Prop :=
  ∀ before event after, events = before ++ event :: after → event.Follows limit before

theorem faultFree_concat_iff {limit : Nat} {events : List Event} {event : Event} :
    FaultFree limit (events ++ [event]) ↔ FaultFree limit events ∧ event.Follows limit events := by
  constructor
  · intro h
    refine ⟨?_, h events event [] rfl⟩
    rintro before e after rfl
    exact h before e (after ++ [event]) (by simp)
  · rintro ⟨hevents, hevent⟩ before e after heq
    rcases List.eq_nil_or_concat after with rfl | ⟨after, last, rfl⟩
    · obtain ⟨rfl, rfl⟩ := List.append_inj' heq rfl |>.imp id List.singleton_inj.1
      exact hevent
    · rw [List.concat_eq_append, ← List.cons_append, ← List.append_assoc] at heq
      exact hevents before e after (List.append_inj' heq rfl).1

/-! ## States and counts -/

/-- How the state of a run is related to the events so far. -/
structure Builder.Tracks (limit : Nat) (events : List Event) (b : Builder) : Prop where
  length : b.stack.length + events.count .closed = events.countP Event.isOpening
  within : b.stack.length ≤ limit
  root : b.stack = [] → (b.root = none ↔ ∀ event ∈ events, event.attributes? = none)
  pos : b.root ≠ none → 0 < limit

namespace Builder

variable {limit : Nat} {events : List Event} {b b' : Builder} {e : Element} {event : Event}
  {tag : String} {attributes : List Attribute}

theorem Tracks.openCount_eq (h : b.Tracks limit events) : openCount events = b.stack.length := by
  have := h.length
  unfold openCount
  omega

/-- An element is opened just if it can begin. -/
theorem Tracks.element_iff (h : b.Tracks limit events) :
    (∃ e, b.element limit tag attributes = .ok e) ↔ Begins limit events attributes := by
  simp only [element_eq_ok_iff]
  constructor
  · rintro ⟨e, hroot, hdepth, pairs, hpairs, -⟩
    refine ⟨by rw [h.openCount_eq]; omega, fun hzero => ?_, pairs, hpairs⟩
    rw [h.openCount_eq, List.length_eq_zero_iff] at hzero
    exact (h.root hzero).1 (hroot hzero)
  · rintro ⟨hdepth, hroot, pairs, hpairs⟩
    rw [h.openCount_eq] at hdepth hroot
    refine ⟨_, fun hnil => ?_, hdepth, pairs, hpairs, rfl⟩
    exact (h.root hnil).2 (hroot (List.length_eq_zero_iff.2 hnil))

/-- **A step fails just at a fault.** -/
theorem Tracks.step_iff (h : b.Tracks limit events) :
    (∃ b', b.step limit event = .ok b') ↔ event.Follows limit events := by
  have hbegins (f : Element → Builder) (tag : String) (attributes : List Attribute) :
      (∃ b', (b.element limit tag attributes >>= fun e => pure (f e)) = .ok b') ↔
        Begins limit events attributes := by
    rw [← h.element_iff]
    constructor
    · rintro ⟨b', hb'⟩
      obtain ⟨e, he, -⟩ := bind_eq_ok_iff.1 hb'
      exact ⟨e, he⟩
    · rintro ⟨e, he⟩
      exact ⟨f e, bind_eq_ok_iff.2 ⟨e, he, rfl⟩⟩
  cases event with
  | opened tag attributes => exact hbegins (fun e => ⟨e :: b.stack, b.root⟩) tag attributes
  | emptied tag attributes => exact hbegins (fun e => close e b.stack b.root) tag attributes
  | closed =>
    rw [Event.Follows, h.openCount_eq]
    obtain ⟨_ | ⟨e, stack⟩, root⟩ := b
    · exact ⟨nofun, nofun⟩
    · exact ⟨fun _ => Nat.succ_pos _, fun _ => ⟨_, rfl⟩⟩
  | text =>
    rw [Event.Follows, h.openCount_eq]
    obtain ⟨_ | ⟨e, stack⟩, root⟩ := b
    · exact ⟨nofun, nofun⟩
    · exact ⟨fun _ => Nat.succ_pos _, fun _ => ⟨_, rfl⟩⟩
  | skipped => exact ⟨fun _ => trivial, fun _ => ⟨b, rfl⟩⟩
  | fault => exact ⟨nofun, nofun⟩

/-- A complete element is closed. -/
theorem tracks_close {stack : List Element} {root : Option Element}
    (hlength : stack.length + events.count .closed = events.countP Event.isOpening)
    (hdepth : stack.length + 1 ≤ limit) (hbegun : ∃ event ∈ events, event.attributes? ≠ none) :
    (close e stack root).Tracks limit events := by
  have hpos : 0 < limit := by omega
  have hwithin : stack.length ≤ limit := by omega
  cases stack with
  | nil =>
    obtain ⟨event, hevent, hattributes⟩ := hbegun
    exact ⟨hlength, hwithin, fun _ => ⟨nofun, fun h => absurd (h event hevent) hattributes⟩,
      fun _ => hpos⟩
  | cons parent stack => exact ⟨hlength, hwithin, nofun, fun _ => hpos⟩

/-- **A step keeps the counts.** -/
theorem Tracks.step (h : b.Tracks limit events) (hstep : b.step limit event = .ok b') :
    b'.Tracks limit (events ++ [event]) := by
  have hlength := h.length
  cases event with
  | opened tag attributes =>
    obtain ⟨e, he, hstep⟩ := bind_eq_ok_iff.1 hstep
    cases hstep
    refine ⟨?_, (element_eq_ok_iff.1 he).2.1, nofun, h.pos⟩
    simp [Event.isOpening]
    omega
  | emptied tag attributes =>
    obtain ⟨e, he, hstep⟩ := bind_eq_ok_iff.1 hstep
    cases hstep
    refine tracks_close ?_ (element_eq_ok_iff.1 he).2.1 ⟨.emptied tag attributes, by simp, nofun⟩
    simpa [Event.isOpening] using hlength
  | closed =>
    obtain ⟨_ | ⟨e, stack⟩, root⟩ := b
    · cases hstep
    · cases hstep
      have hopening : 0 < events.countP Event.isOpening := by
        rw [← hlength, List.length_cons]
        omega
      obtain ⟨event, hevent, hisOpening⟩ := List.countP_pos_iff.1 hopening
      refine tracks_close ?_ h.within ⟨event, List.mem_append_left _ hevent, ?_⟩
      · simp [Event.isOpening] at hlength ⊢
        omega
      · cases event <;> cases hisOpening
        nofun
  | text =>
    obtain ⟨_ | ⟨e, stack⟩, root⟩ := b
    · cases hstep
    · cases hstep
      exact ⟨by simpa [Event.isOpening] using hlength, h.within, nofun, h.pos⟩
  | skipped =>
    cases hstep
    refine ⟨by simpa [Event.isOpening] using hlength, h.within, fun hnil => ?_, h.pos⟩
    rw [h.root hnil, List.forall_mem_append, List.forall_mem_singleton]
    exact (and_iff_left rfl).symm
  | fault => cases hstep

theorem tracks_start : start.Tracks limit [] :=
  ⟨rfl, Nat.zero_le limit, fun _ => ⟨fun _ => nofun, fun _ => rfl⟩, nofun⟩

theorem tracks_of_foldlM (h : events.foldlM (Builder.step limit) .start = .ok b) :
    b.Tracks limit events :=
  foldlM_history (P := fun events b => b.Tracks limit events) (fun _ _ _ _ => Tracks.step)
    tracks_start h

/-- **A run goes through just the events that are free of faults.** -/
theorem exists_foldlM_step_iff :
    (∃ b, events.foldlM (Builder.step limit) .start = .ok b) ↔ FaultFree limit events := by
  induction events using List.reverseRecOn with
  | nil =>
    refine ⟨fun _ before event after heq => ?_, fun _ => ⟨start, rfl⟩⟩
    exact absurd heq.symm (by simp)
  | append_singleton events event ih =>
    rw [faultFree_concat_iff, ← ih]
    simp only [List.foldlM_append, bind_eq_ok_iff, List.foldlM_cons, List.foldlM_nil]
    constructor
    · rintro ⟨b', b, hrun, _, hstep, -⟩
      exact ⟨⟨b, hrun⟩, (tracks_of_foldlM hrun).step_iff.1 ⟨_, hstep⟩⟩
    · rintro ⟨⟨b, hrun⟩, hfollows⟩
      obtain ⟨b', hstep⟩ := (tracks_of_foldlM hrun).step_iff.2 hfollows
      exact ⟨b', b, hrun, b', hstep, rfl⟩

/-! ## Elements that are too deep -/

theorem attributeTags_ne_tooDeep {t : ShapeTree} (depth bound : Nat) :
    attributeTags tag attributes t ≠ .error (.tooDeep depth bound) := by
  induction attributes generalizing t with
  | nil => nofun
  | cons head rest ih =>
    cases head with
    | pair name value => exact ih
    | badValue | malformed => nofun

theorem finish_ne_tooDeep (depth bound : Nat) : b.finish ≠ .error (.tooDeep depth bound) := by
  obtain ⟨_ | ⟨e, stack⟩, _ | root⟩ := b <;> nofun

/-- An element is too deep just if as many elements are open as there may be. -/
theorem Tracks.element_eq_tooDeep_iff (h : b.Tracks limit events) {depth bound : Nat} :
    b.element limit tag attributes = .error (.tooDeep depth bound) ↔
      depth = limit + 1 ∧ bound = limit ∧ openCount events = limit := by
  have hwithin := h.within
  rw [h.openCount_eq]
  unfold element
  split
  · rename_i hroot
    -- behind a root element no element is open, but the limit is not zero
    simp only [Bool.and_eq_true, List.isEmpty_iff, Option.isSome_iff_ne_none] at hroot
    refine ⟨nofun, fun ⟨_, _, hfull⟩ => ?_⟩
    have hpos := h.pos hroot.2
    rw [← hfull, hroot.1] at hpos
    cases hpos
  · split
    · rename_i hdeep
      have hfull : b.stack.length = limit := by omega
      rw [hfull]
      constructor
      · intro heq
        cases heq
        exact ⟨rfl, rfl, rfl⟩
      · rintro ⟨rfl, rfl, -⟩
        rfl
    · rename_i hdeep
      refine ⟨fun heq => ?_, fun ⟨_, _, hfull⟩ => absurd hfull (by omega)⟩
      obtain htags | ⟨_, -, heq⟩ := bind_eq_error_iff.1 heq
      · exact absurd htags (attributeTags_ne_tooDeep depth bound)
      · cases heq

/-- **A step finds an element too deep** just if one begins and as many are open as there may be. -/
theorem Tracks.step_eq_tooDeep_iff (h : b.Tracks limit events) {depth bound : Nat} :
    b.step limit event = .error (.tooDeep depth bound) ↔ depth = limit + 1 ∧ bound = limit ∧
      event.attributes? ≠ none ∧ openCount events = limit := by
  have hbegins (f : Element → Builder) (tag : String) (attributes : List Attribute) :
      (b.element limit tag attributes >>= fun e => pure (f e)) = .error (.tooDeep depth bound) ↔
        depth = limit + 1 ∧ bound = limit ∧ openCount events = limit := by
    rw [← h.element_eq_tooDeep_iff, bind_eq_error_iff]
    exact or_iff_left fun ⟨_, _, heq⟩ => nomatch heq
  cases event with
  | opened tag attributes =>
    rw [and_iff_right (nofun : Event.attributes? (.opened tag attributes) ≠ none)]
    exact hbegins (fun e => ⟨e :: b.stack, b.root⟩) tag attributes
  | emptied tag attributes =>
    rw [and_iff_right (nofun : Event.attributes? (.emptied tag attributes) ≠ none)]
    exact hbegins (fun e => close e b.stack b.root) tag attributes
  | closed | text =>
    refine ⟨fun heq => ?_, fun h => absurd rfl h.2.2.1⟩
    obtain ⟨_ | ⟨e, stack⟩, root⟩ := b <;> cases heq
  | skipped | fault => exact ⟨nofun, fun h => absurd rfl h.2.2.1⟩

end Builder

/-- **An element is reported as too deep** just if the first fault is an element that begins where
as many elements are open as there may be. -/
theorem shapeOfEvents_eq_tooDeep_iff {limit depth bound : Nat} {events : List Event} :
    shapeOfEvents limit events = .error (.tooDeep depth bound) ↔
      depth = limit + 1 ∧ bound = limit ∧ ∃ before event after,
        events = before ++ event :: after ∧ FaultFree limit before ∧
          event.attributes? ≠ none ∧ openCount before = limit := by
  have hrun : shapeOfEvents limit events = .error (.tooDeep depth bound) ↔
      events.foldlM (Builder.step limit) .start = .error (.tooDeep depth bound) := by
    rw [shapeOfEvents, bind_eq_error_iff]
    apply or_iff_left
    rintro ⟨b, -, hfinish⟩
    exact Builder.finish_ne_tooDeep depth bound hfinish
  rw [hrun, foldlM_eq_error_iff]
  constructor
  · rintro ⟨before, event, after, b, heq, hbefore, hstep⟩
    obtain ⟨hdepth, hbound, hbegins, hfull⟩ :=
      (Builder.tracks_of_foldlM hbefore).step_eq_tooDeep_iff.1 hstep
    have hfree := Builder.exists_foldlM_step_iff.1 ⟨b, hbefore⟩
    exact ⟨hdepth, hbound, before, event, after, heq, hfree, hbegins, hfull⟩
  · rintro ⟨hdepth, hbound, before, event, after, heq, hfree, hbegins, hfull⟩
    obtain ⟨b, hbefore⟩ := Builder.exists_foldlM_step_iff.2 hfree
    refine ⟨before, event, after, b, heq, hbefore, ?_⟩
    exact (Builder.tracks_of_foldlM hbefore).step_eq_tooDeep_iff.2 ⟨hdepth, hbound, hbegins, hfull⟩

/-- **Reading a document**: it has a shape just if its events spell a single element, skipped ones
left out, which is not nested too deeply, and this is the shape of the element; and an element is
reported as too deep, by one level, just if the first fault is that it begins. -/
theorem shapeOfEvents_spells_iff (limit : Nat) (events : List Event) :
    (∀ t, shapeOfEvents limit events = .ok t ↔
      ∃ root, Spells (events.filter (· ≠ .skipped)) root ∧ root.depth ≤ limit ∧ t = root.shape) ∧
    ∀ depth bound, shapeOfEvents limit events = .error (.tooDeep depth bound) ↔
      depth = limit + 1 ∧ bound = limit ∧ ∃ before event after,
        events = before ++ event :: after ∧ FaultFree limit before ∧
          event.attributes? ≠ none ∧ openCount before = limit :=
  ⟨fun _ => shapeOfEvents_eq_ok_iff, fun _ _ => shapeOfEvents_eq_tooDeep_iff⟩

end TrafficSchema.Xml
