import Mathlib.Tactic.TypeStar

/-!
# Computations that may fail

A sequence of steps succeeds just if every step does (`bind_eq_ok_iff`, `bind_eq_error_iff`), so
what every step keeps holds at the end of a run that succeeds (`foldlM_invariant`, and
`foldlM_history` for what depends on the steps taken so far), and a run of steps that cannot fail
where this holds succeeds (`exists_foldlM_eq_ok`). A run that fails does so at its first step that
fails (`foldlM_eq_error_iff`).
-/

namespace TrafficSchema

universe u

theorem bind_eq_ok_iff {ε : Type*} {α β : Type u} {x : Except ε α} {f : α → Except ε β} {b : β} :
    (x >>= f) = .ok b ↔ ∃ a, x = .ok a ∧ f a = .ok b := by
  cases x with
  | error e => exact ⟨nofun, nofun⟩
  | ok a =>
    constructor
    · exact fun h => ⟨a, rfl, h⟩
    · rintro ⟨a', ha, h⟩
      cases ha
      exact h

theorem bind_eq_error_iff {ε : Type*} {α β : Type u} {x : Except ε α} {f : α → Except ε β} {e : ε} :
    (x >>= f) = .error e ↔ x = .error e ∨ ∃ a, x = .ok a ∧ f a = .error e := by
  cases x with
  | error e' =>
    constructor
    · intro h
      cases h
      exact .inl rfl
    · rintro (h | ⟨_, h, -⟩) <;> cases h
      rfl
  | ok a =>
    constructor
    · exact fun h => .inr ⟨a, rfl, h⟩
    · rintro (h | ⟨_, h, he⟩) <;> cases h
      exact he

variable {ε α β : Type*}

/-- A computation fails just if it has no result. -/
theorem exists_eq_error_iff {x : Except ε α} : (∃ e, x = .error e) ↔ ∀ a, x ≠ .ok a := by
  cases x with
  | error e => exact ⟨fun _ => nofun, fun _ => ⟨e, rfl⟩⟩
  | ok a => exact ⟨nofun, fun h => absurd rfl (h a)⟩

/-- What every step of a run keeps holds at its end. -/
theorem foldlM_invariant {P : β → Prop} {f : β → α → Except ε β} {l : List α}
    (hstep : ∀ a ∈ l, ∀ b b', P b → f b a = .ok b' → P b') {b b' : β} (hb : P b)
    (h : l.foldlM f b = .ok b') : P b' := by
  induction l generalizing b with
  | nil =>
    cases h
    exact hb
  | cons a l ih =>
    rw [List.foldlM_cons, bind_eq_ok_iff] at h
    obtain ⟨c, hc, h⟩ := h
    have hnext := hstep a List.mem_cons_self b c hb hc
    exact ih (fun x hx => hstep x (List.mem_cons_of_mem a hx)) hnext h

/-- A run succeeds if every step does where the invariant holds, and keeps it. -/
theorem exists_foldlM_eq_ok {P : β → Prop} {f : β → α → Except ε β} {l : List α}
    (hstep : ∀ a ∈ l, ∀ b, P b → ∃ b', f b a = .ok b' ∧ P b') {b : β} (hb : P b) :
    ∃ b', l.foldlM f b = .ok b' := by
  induction l generalizing b with
  | nil => exact ⟨b, rfl⟩
  | cons a l ih =>
    obtain ⟨c, hc, hnext⟩ := hstep a List.mem_cons_self b hb
    rw [List.foldlM_cons, hc]
    exact ih (fun x hx => hstep x (List.mem_cons_of_mem a hx)) hnext

/-- What every step of a run keeps, of the steps taken so far and of what they led to, holds at its
end. -/
theorem foldlM_history {P : List α → β → Prop} {f : β → α → Except ε β}
    (hstep : ∀ before a b b', P before b → f b a = .ok b' → P (before ++ [a]) b') {b b' : β}
    (hb : P [] b) {l : List α} (h : l.foldlM f b = .ok b') : P l b' := by
  have hrun (l before : List α) (b : β) (hb : P before b) (h : l.foldlM f b = .ok b') :
      P (before ++ l) b' := by
    induction l generalizing before b with
    | nil =>
      cases h
      rw [List.append_nil]
      exact hb
    | cons a l ih =>
      rw [List.foldlM_cons, bind_eq_ok_iff] at h
      obtain ⟨c, hc, h⟩ := h
      have hrest := ih (before ++ [a]) c (hstep before a b c hb hc) h
      rwa [List.append_assoc] at hrest
  exact hrun l [] b hb h

/-- A run fails just if one of its steps does, behind a run that succeeds. -/
theorem foldlM_eq_error_iff {f : β → α → Except ε β} {l : List α} {b : β} {e : ε} :
    l.foldlM f b = .error e ↔ ∃ before a after c, l = before ++ a :: after ∧
      before.foldlM f b = .ok c ∧ f c a = .error e := by
  constructor
  · intro h
    induction l generalizing b with
    | nil => cases h
    | cons a l ih =>
      rw [List.foldlM_cons] at h
      cases ha : f b a with
      | error e' =>
        rw [ha] at h
        cases h
        exact ⟨[], a, l, b, rfl, rfl, ha⟩
      | ok c =>
        rw [ha] at h
        obtain ⟨before, a', after, d, rfl, hrun, herror⟩ := ih h
        refine ⟨a :: before, a', after, d, rfl, ?_, herror⟩
        rw [List.foldlM_cons, ha]
        exact hrun
  · rintro ⟨before, a, after, c, rfl, hrun, herror⟩
    rw [List.foldlM_append, hrun]
    change List.foldlM f c (a :: after) = _
    rw [List.foldlM_cons, herror]
    rfl

/-- Steps that change nothing can be left out of a run. -/
theorem foldlM_filter {f : β → α → Except ε β} {p : α → Bool}
    (hp : ∀ b a, p a = false → f b a = .ok b) (l : List α) (b : β) :
    (l.filter p).foldlM f b = l.foldlM f b := by
  induction l generalizing b with
  | nil => rfl
  | cons a l ih =>
    cases ha : p a with
    | true =>
      rw [List.filter_cons_of_pos ha, List.foldlM_cons, List.foldlM_cons]
      exact congrArg _ (funext ih)
    | false =>
      rw [List.filter_cons_of_neg (by simp [ha]), List.foldlM_cons, hp b a ha]
      exact ih b

end TrafficSchema
