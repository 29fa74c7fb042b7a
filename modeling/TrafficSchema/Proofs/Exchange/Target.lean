import Mathlib.Data.List.TakeWhile
import Mathlib.Data.Set.Function
import TrafficSchema.Exchange.Decode

/-!
# The paths of targets

A target whose names are fit for a path (`Target.IsProper`) is written as a path (`Target.path`).
These are the paths that can be read, and each is read as the target that it was written for
(`Target.ofPath?_eq_some_iff`). An exchange with any other path is refused, and the error repeats
the path (`Target.ofPath?_path_iff`).
-/

namespace TrafficSchema

namespace Target

/-! ## Cuts -/

/-- **A cut is at the first occurrence of the character**, and nothing else is lost. -/
theorem cutAt_eq_iff {c : Char} {cs before : List Char} {after : Option (List Char)} :
    cutAt c cs = (before, after) ↔ c ∉ before ∧ cs = before ++ (after.map (c :: ·)).getD [] := by
  constructor
  · intro h
    have hparts := List.takeWhile_append_dropWhile (p := (· != c)) (l := cs)
    have hbefore : c ∉ cs.takeWhile (· != c) := fun hmem => by
      simpa using List.mem_takeWhile_imp hmem
    rw [cutAt] at h
    split at h
    · rename_i hrest
      rw [hrest, List.append_nil] at hparts
      cases h
      exact ⟨hparts ▸ hbefore, by simp⟩
    · rename_i d rest hrest
      have hd : d = c := by
        simpa [hrest] using List.head_dropWhile_not (· != c) (l := cs) (by simp [hrest])
      cases h
      exact ⟨hbefore, by simpa [hrest, hd] using hparts.symm⟩
  · rintro ⟨hbefore, rfl⟩
    have hkeep : ∀ d ∈ before, (d != c) = true := by
      rintro d hd
      rw [bne_iff_ne]
      rintro rfl
      exact hbefore hd
    rw [cutAt, List.takeWhile_append_of_pos hkeep, List.dropWhile_append_of_pos hkeep]
    cases after <;> simp

/-! ## Paths -/

/-- A name can stand in a path: it is not empty, and has neither slashes nor question marks. -/
def IsName (name : String) : Prop := name ≠ "" ∧ '/' ∉ name.toList ∧ '?' ∉ name.toList

/-- Both names can stand in a path. -/
structure IsProper (t : Target) : Prop where
  service : IsName t.service
  endpoint : IsName t.endpoint

/-- The path of a target. -/
def path (t : Target) : String :=
  "/" ++ t.service ++ "/" ++ t.endpoint ++ (t.query.map ("?" ++ ·)).getD ""

theorem toList_path (t : Target) : t.path.toList =
    '/' :: (t.service.toList ++ '/' :: t.endpoint.toList) ++
      ((t.query.map String.toList).map ('?' :: ·)).getD [] := by
  cases h : t.query <;> simp [path, h]

/-- The path of a target is read as this target. -/
theorem ofPath?_path {t : Target} (ht : t.IsProper) : ofPath? t.path = some t := by
  obtain ⟨⟨hservice, hslash, hmark⟩, ⟨hendpoint, hslash', hmark'⟩⟩ := ht
  have hnames : cutAt '?' t.path.toList =
      ('/' :: (t.service.toList ++ '/' :: t.endpoint.toList), t.query.map String.toList) :=
    cutAt_eq_iff.2 ⟨by simp [hmark, hmark'], t.toList_path⟩
  have hcut : cutAt '/' (t.service.toList ++ '/' :: t.endpoint.toList) =
      (t.service.toList, some t.endpoint.toList) :=
    cutAt_eq_iff.2 ⟨hslash, rfl⟩
  simp [ofPath?, hnames, hcut, hservice, hendpoint, hslash', Function.comp_def]

/-- Only the path of a target is read as this target. -/
theorem eq_path_of_ofPath? {path : String} {t : Target} (h : ofPath? path = some t) :
    t.IsProper ∧ path = t.path := by
  unfold ofPath? at h
  split at h
  rename_i names query hnames
  obtain ⟨hmark, htext⟩ := cutAt_eq_iff.1 hnames
  split at h
  · rename_i rest
    split at h
    · rename_i service endpoint hcut
      obtain ⟨hslash, rfl⟩ := cutAt_eq_iff.1 hcut
      split at h
      · cases h
      · rename_i hproper
        cases h
        simp only [not_or] at hproper
        simp only [Option.map_some, Option.getD_some, List.mem_cons, List.mem_append,
          not_or] at hmark
        refine ⟨⟨?_, ?_⟩, String.toList_injective ?_⟩
        · simpa [IsName, hslash] using ⟨hproper.1, hmark.2.1⟩
        · simpa [IsName] using ⟨hproper.2.1, hproper.2.2, hmark.2.2.2⟩
        · simp [toList_path, htext, Function.comp_def]
    · cases h
  · cases h

theorem ofPath?_eq_some_iff {path : String} {t : Target} :
    ofPath? path = some t ↔ t.IsProper ∧ path = t.path := by
  refine ⟨eq_path_of_ofPath?, ?_⟩
  rintro ⟨ht, rfl⟩
  exact ofPath?_path ht

/-- A path is the path of one target at most. -/
theorem injOn_path : Set.InjOn path {t | t.IsProper} := by
  intro t ht u hu heq
  have hread := ofPath?_path ht
  rw [heq, ofPath?_path hu, Option.some.injEq] at hread
  exact hread.symm

end Target

/-- An exchange is refused for its path just if this is not the path of a target. -/
theorem Exchange.decode_eq_malformedPath_iff {config : Config} {e : Exchange} {path : String} :
    e.decode config = .error (.malformedPath path) ↔
      path = e.path ∧ Target.ofPath? e.path = none := by
  rw [Exchange.decode]
  cases Target.ofPath? e.path with
  | none => simp [eq_comm]
  | some t =>
    cases Exchange.responseShape config e.responseBody <;> simp

/-- **The paths that can be read are those of targets.** A path is read as a target just if both
names of the target are non-empty and free of slashes and question marks, and the path is `/`, the
service, `/`, the endpoint, and `?` with the query if there is one. No path is that of two targets.
An exchange whose path is that of none is refused with an error that holds the whole path, and no
exchange is refused with such an error otherwise. -/
theorem Target.ofPath?_path_iff :
    (∀ (path : String) (t : Target), ofPath? path = some t ↔ t.IsProper ∧ path = t.path) ∧
    Set.InjOn Target.path {t | t.IsProper} ∧
    ∀ (config : Config) (e : Exchange) (path : String),
      e.decode config = .error (.malformedPath path) ↔
        path = e.path ∧ ¬ ∃ t : Target, t.IsProper ∧ e.path = t.path := by
  refine ⟨fun _ _ => ofPath?_eq_some_iff, injOn_path, fun config e path => ?_⟩
  rw [Exchange.decode_eq_malformedPath_iff, Option.eq_none_iff_forall_ne_some]
  simp only [ne_eq, ofPath?_eq_some_iff, not_exists]

example : Target.ofPath? "/shop/list?from=/a/b?c" = some ⟨"shop", "list", some "from=/a/b?c"⟩ := by
  decide

end TrafficSchema
