import Mathlib.Tactic.TypeStar
import TrafficSchema.Dict

/-!
# Lookups in dictionaries

What all values of a dictionary have in common is said by `Dict.Forall`.

Flows are held by service and then by endpoint. `Dict.at?` looks up both keys at once. If no
outer key holds an empty dictionary (`Dict.Proper`) these lookups determine everything
(`Dict.Proper.ext_at?`): an outer key is there just because some inner key is.
-/

namespace TrafficSchema

namespace Dict

variable {α β γ : Type*}

/-! ## Combining two lookups -/

@[simp] theorem combine?_none_right (f : α → α → α) (x : Option α) : combine? f x none = x := by
  cases x <;> rfl

@[simp] theorem combine?_none_left (f : α → α → α) (y : Option α) : combine? f none y = y := rfl

@[simp] theorem combine?_some_some (f : α → α → α) (a b : α) :
    combine? f (some a) (some b) = some (f a b) := rfl

@[simp] theorem combine?_eq_none_iff {f : α → α → α} {x y : Option α} :
    combine? f x y = none ↔ x = none ∧ y = none := by
  cases x <;> cases y <;> simp

/-- Three lookups can be combined in either grouping if the values found can. -/
theorem combine?_assoc_of {f : α → α → α} {x y z : Option α}
    (h : ∀ a b c, x = some a → y = some b → z = some c → f (f a b) c = f a (f b c)) :
    combine? f (combine? f x y) z = combine? f x (combine? f y z) := by
  cases x with
  | none => rfl
  | some a =>
    cases y with
    | none => rw [combine?_none_right, combine?_none_left]
    | some b =>
      cases z with
      | none => simp only [combine?_none_right]
      | some c => exact congrArg some (h a b c rfl rfl rfl)

instance {f : α → α → α} [hf : Std.Associative f] : Std.Associative (combine? f) where
  assoc _ _ _ := combine?_assoc_of fun a b c _ _ _ => hf.assoc a b c

theorem isSome_combine? (f : α → α → α) (x y : Option α) :
    (combine? f x y).isSome = (x.isSome || y.isSome) := by
  cases x <;> cases y <;> rfl

theorem combine?_self {f : α → α → α} (hself : ∀ a, f a a = a) (x : Option α) :
    combine? f x x = x := by
  cases x with
  | none => rfl
  | some a => rw [combine?_some_some, hself]

/-- What was combined last can be combined again without effect. -/
theorem combine?_combine?_right {f : α → α → α} (hself : ∀ a, f a a = a)
    (hright : ∀ a b, f (f a b) b = f a b) (x y : Option α) :
    combine? f (combine? f x y) y = combine? f x y := by
  cases x with
  | none => exact combine?_self hself y
  | some a =>
    cases y with
    | none => rfl
    | some b => exact congrArg some (hright a b)

/-- What was combined first can be combined again without effect. -/
theorem combine?_combine?_left {f : α → α → α} (hself : ∀ a, f a a = a)
    (hleft : ∀ a b, f (f a b) a = f a b) (x y : Option α) :
    combine? f (combine? f x y) x = combine? f x y := by
  cases x with
  | none => exact combine?_none_right f (combine? f none y)
  | some a =>
    cases y with
    | none => exact combine?_self hself (some a)
    | some b => exact congrArg some (hleft a b)

/-- What holds of both values, and is kept by the operation, holds of what they combine to. -/
theorem combine?_invariant {P : α → Prop} {f : α → α → α} (hop : ∀ a b, P a → P b → P (f a b))
    {x y : Option α} (hx : ∀ a, x = some a → P a) (hy : ∀ b, y = some b → P b) {c : α}
    (h : combine? f x y = some c) : P c := by
  cases x with
  | none => exact hy c h
  | some a =>
    cases y with
    | none => exact hx c h
    | some b =>
      cases h
      exact hop a b (hx a rfl) (hy b rfl)

/-- If the operation relates both values to its result, each value is related to what the two
combine to. -/
theorem exists_combine?_eq_some {r : α → α → Prop} {f : α → α → α} (hself : ∀ a, r a a)
    (hleft : ∀ a b, r a (f a b)) (hright : ∀ a b, r b (f a b)) {x y : Option α} {a : α}
    (h : x = some a ∨ y = some a) : ∃ c, combine? f x y = some c ∧ r a c := by
  rcases h with rfl | rfl
  · cases y with
    | none => exact ⟨a, rfl, hself a⟩
    | some b => exact ⟨f a b, rfl, hleft a b⟩
  · cases x with
    | none => exact ⟨a, rfl, hself a⟩
    | some b => exact ⟨f b a, rfl, hright b a⟩

/-! ## Combining dictionaries -/

/-- The operation has to be associative only in what all three dictionaries hold under one key. -/
theorem unionWith_assoc_of {f : α → α → α} {d₁ d₂ d₃ : Dict α}
    (h : ∀ key a b c, d₁.get? key = some a → d₂.get? key = some b → d₃.get? key = some c →
      f (f a b) c = f a (f b c)) :
    (d₁.unionWith f d₂).unionWith f d₃ = d₁.unionWith f (d₂.unionWith f d₃) := by
  ext key : 1
  simp only [get?_unionWith]
  exact combine?_assoc_of (h key)

instance {f : α → α → α} [hf : Std.Associative f] : Std.Associative (unionWith f) where
  assoc _ _ _ := unionWith_assoc_of fun _ a b c _ _ _ => hf.assoc a b c

theorem contains_unionWith (f : α → α → α) (d e : Dict α) (key : String) :
    (d.unionWith f e).contains key = (d.contains key || e.contains key) := by
  simp only [contains, get?_unionWith, isSome_combine?]

theorem unionWith_self {f : α → α → α} (hself : ∀ a, f a a = a) (d : Dict α) :
    d.unionWith f d = d := by
  ext key : 1
  rw [get?_unionWith, combine?_self hself]

theorem unionWith_unionWith_right {f : α → α → α} (hself : ∀ a, f a a = a)
    (hright : ∀ a b, f (f a b) b = f a b) (d e : Dict α) :
    (d.unionWith f e).unionWith f e = d.unionWith f e := by
  ext key : 1
  rw [get?_unionWith, get?_unionWith, combine?_combine?_right hself hright]

theorem unionWith_unionWith_left {f : α → α → α} (hself : ∀ a, f a a = a)
    (hleft : ∀ a b, f (f a b) a = f a b) (d e : Dict α) :
    (d.unionWith f e).unionWith f d = d.unionWith f e := by
  ext key : 1
  rw [get?_unionWith, get?_unionWith, combine?_combine?_left hself hleft]

/-! ## Emptiness -/

theorem isEmpty_iff {d : Dict α} : d.isEmpty ↔ d = ∅ := by
  obtain ⟨l, h⟩ := d
  cases l with
  | nil => exact ⟨fun _ => rfl, fun _ => rfl⟩
  | cons e l => exact ⟨nofun, nofun⟩

theorem eq_empty_iff {d : Dict α} : d = ∅ ↔ ∀ key, d.get? key = none := by
  constructor
  · rintro rfl key
    rfl
  · intro h
    ext key : 1
    rw [h key, get?_empty]

theorem isEmpty_unionWith (f : α → α → α) (d e : Dict α) :
    (d.unionWith f e).isEmpty ↔ d.isEmpty ∧ e.isEmpty := by
  simp only [isEmpty_iff, eq_empty_iff, get?_unionWith, combine?_eq_none_iff, forall_and]

/-! ## Values -/

/-- All values of a dictionary have a property. -/
def Forall (p : α → Prop) (d : Dict α) : Prop := ∀ key a, d.get? key = some a → p a

theorem forall_empty (p : α → Prop) : (∅ : Dict α).Forall p := nofun

theorem forall_iff_values {p : α → Prop} {d : Dict α} : d.Forall p ↔ ∀ a ∈ d.values, p a := by
  simp only [values, List.forall_mem_map]
  exact ⟨fun h e he => h e.1 e.2 (mem_entries_iff.1 he), fun h key a ha =>
    h (key, a) (mem_entries_iff.2 ha)⟩

theorem Forall.insert {p : α → Prop} {d : Dict α} (hd : d.Forall p) (key : String) {a : α}
    (ha : p a) : (d.insert key a).Forall p := by
  intro k b hb
  rw [get?_insert] at hb
  split at hb
  · cases hb
    exact ha
  · exact hd k b hb

theorem forall_map {p : β → Prop} {f : String → α → β} {d : Dict α} :
    (d.map f).Forall p ↔ ∀ key a, d.get? key = some a → p (f key a) := by
  simp only [Forall, get?_map, Option.map_eq_some_iff]
  constructor
  · exact fun h key a ha => h key (f key a) ⟨a, ha, rfl⟩
  · rintro h key b ⟨a, ha, rfl⟩
    exact h key a ha

theorem map_congr {f g : String → α → β} {d : Dict α}
    (h : ∀ key a, d.get? key = some a → f key a = g key a) : d.map f = d.map g := by
  ext key : 1
  rw [get?_map, get?_map]
  exact Option.map_congr (h key)

theorem map_map (g : String → β → γ) (f : String → α → β) (d : Dict α) :
    (d.map f).map g = d.map fun key a => g key (f key a) := by
  ext key : 1
  simp only [get?_map, Option.map_map]
  rfl

theorem map_id (d : Dict α) : (d.map fun _ a => a) = d := by
  ext key : 1
  simp

theorem size_map (f : String → α → β) (d : Dict α) : (d.map f).size = d.size :=
  List.length_map _

theorem sumBy_map {count : β → Nat} {count' : α → Nat} {f : String → α → β}
    (h : ∀ key a, count (f key a) = count' a) (d : Dict α) :
    (d.map f).sumBy count = d.sumBy count' := by
  simp only [sumBy, map, List.foldr_map, h]

/-- Inserting the entries of a dictionary one after the other gives that dictionary. -/
theorem foldl_insert_entries (d : Dict α) (f : α → β) :
    d.entries.foldl (fun acc e => acc.insert e.1 (f e.2)) ∅ = d.map fun _ => f := by
  have key (l : List (String × α)) (hl : l.Pairwise (·.1 < ·.1)) (acc : Dict β) (k : String) :
      (l.foldl (fun acc e => acc.insert e.1 (f e.2)) acc).get? k =
        ((findEntry k l).map f).or (acc.get? k) := by
    induction l generalizing acc with
    | nil => rfl
    | cons e l ih =>
      obtain ⟨hk, hl⟩ := List.pairwise_cons.1 hl
      rw [List.foldl_cons, ih hl, get?_insert, findEntry]
      split
      · rename_i heq
        rw [heq, findEntry_eq_none hk]
        rfl
      · rfl
  ext k : 1
  rw [key d.entries d.sorted, get?_map, get?_empty, Option.or_none]
  rfl

/-! ## Two keys at once -/

/-- What an inner key holds in the dictionary that an outer key holds. -/
def at? (d : Dict (Dict α)) (outer inner : String) : Option α :=
  (d.get? outer).bind fun e => e.get? inner

/-- No outer key holds an empty dictionary. -/
def Proper (d : Dict (Dict α)) : Prop := ∀ outer e, d.get? outer = some e → e ≠ ∅

theorem proper_empty : (∅ : Dict (Dict α)).Proper := nofun

/-- The entry of an outer key that is not there counts as empty. -/
theorem at?_eq_getD (d : Dict (Dict α)) (outer inner : String) :
    d.at? outer inner = ((d.get? outer).getD ∅).get? inner := by
  unfold at?
  cases d.get? outer <;> rfl

/-- Dictionaries of dictionaries that are not empty are equal if all lookups of two keys agree. -/
theorem Proper.ext_at? {d e : Dict (Dict α)} (hd : d.Proper) (he : e.Proper)
    (h : ∀ outer inner, d.at? outer inner = e.at? outer inner) : d = e := by
  ext outer : 1
  have hget (inner : String) :
      ((d.get? outer).getD ∅).get? inner = ((e.get? outer).getD ∅).get? inner := by
    simpa only [at?_eq_getD] using h outer inner
  have hinner : (d.get? outer).getD ∅ = (e.get? outer).getD ∅ := ext_get? hget
  cases hdo : d.get? outer with
  | none =>
    cases heo : e.get? outer with
    | none => rfl
    | some e' =>
      rw [hdo, heo] at hinner
      exact absurd hinner.symm (he outer e' heo)
  | some d' =>
    cases heo : e.get? outer with
    | none =>
      rw [hdo, heo] at hinner
      exact absurd hinner (hd outer d' hdo)
    | some e' =>
      rw [hdo, heo] at hinner
      exact congrArg some hinner

theorem Proper.isEmpty_iff {d : Dict (Dict α)} (hd : d.Proper) :
    d.isEmpty ↔ ∀ outer inner, d.at? outer inner = none := by
  rw [Dict.isEmpty_iff]
  refine ⟨?_, fun h => hd.ext_at? proper_empty h⟩
  rintro rfl outer inner
  rfl

/-- An outer key is there just if it is with some inner key. -/
theorem Proper.contains_iff {d : Dict (Dict α)} (hd : d.Proper) {outer : String} :
    d.contains outer ↔ ∃ inner a, d.at? outer inner = some a := by
  have hcontains : d.contains outer ↔ ∃ e, d.get? outer = some e := Option.isSome_iff_exists
  rw [hcontains]
  constructor
  · rintro ⟨e, he⟩
    have hne : ¬ ∀ inner, e.get? inner = none := fun h => hd outer e he (eq_empty_iff.2 h)
    obtain ⟨inner, hinner⟩ := Classical.not_forall.1 hne
    obtain ⟨a, ha⟩ := Option.ne_none_iff_exists'.1 hinner
    exact ⟨inner, a, Option.bind_eq_some_iff.2 ⟨e, he, ha⟩⟩
  · rintro ⟨inner, a, ha⟩
    obtain ⟨e, he, -⟩ := Option.bind_eq_some_iff.1 ha
    exact ⟨e, he⟩

theorem at?_map (f : String → String → α → β) (d : Dict (Dict α)) (outer inner : String) :
    (d.map fun outer e => e.map (f outer)).at? outer inner =
      (d.at? outer inner).map (f outer inner) := by
  unfold at?
  rw [get?_map]
  cases d.get? outer with
  | none => rfl
  | some e => simp

/-- Writing under two keys touches these two only. -/
theorem at?_upsert_upsert (d : Dict (Dict α)) (outer inner o i : String) (f : Option α → α) :
    (d.upsert outer fun e => (e.getD ∅).upsert inner f).at? o i =
      if o = outer ∧ i = inner then some (f (d.at? outer inner)) else d.at? o i := by
  simp only [at?_eq_getD, get?_upsert]
  by_cases ho : o = outer
  · subst ho
    by_cases hi : i = inner
    · simp [hi]
    · simp [hi]
  · simp [ho]

theorem Proper.upsert_upsert {d : Dict (Dict α)} (hd : d.Proper) (outer inner : String)
    (f : Option α → α) : (d.upsert outer fun e => (e.getD ∅).upsert inner f).Proper := by
  intro o e he
  rw [get?_upsert] at he
  split at he
  · cases he
    intro hempty
    have hinner := eq_empty_iff.1 hempty inner
    simp at hinner
  · exact hd o e he

theorem Proper.map {d : Dict (Dict α)} (hd : d.Proper) (f : String → String → α → β) :
    (d.map fun outer e => e.map (f outer)).Proper := by
  intro outer e he
  rw [get?_map, Option.map_eq_some_iff] at he
  obtain ⟨e', he', rfl⟩ := he
  rintro hempty
  refine hd outer e' he' (eq_empty_iff.2 fun key => ?_)
  have hkey := congrArg (fun d => d.get? key) hempty
  simpa using hkey

/-- Combining two dictionaries of dictionaries works pair of keys by pair of keys. -/
theorem at?_unionWith (f : α → α → α) (d e : Dict (Dict α)) (outer inner : String) :
    (d.unionWith (unionWith f) e).at? outer inner =
      combine? f (d.at? outer inner) (e.at? outer inner) := by
  unfold at?
  rw [get?_unionWith]
  cases d.get? outer with
  | none => rfl
  | some d' =>
    cases e.get? outer with
    | none => simp
    | some e' => simp

theorem Proper.unionWith {f : α → α → α} {d e : Dict (Dict α)} (hd : d.Proper) (he : e.Proper) :
    (d.unionWith (Dict.unionWith f) e).Proper := by
  intro outer u hu
  rw [get?_unionWith] at hu
  cases hdo : d.get? outer with
  | none => exact he outer u (by simpa [hdo] using hu)
  | some d' =>
    cases heo : e.get? outer with
    | none => exact hd outer u (by simpa [hdo, heo] using hu)
    | some e' =>
      simp only [hdo, heo, combine?_some_some, Option.some.injEq] at hu
      rintro rfl
      -- if the union is empty so is its first part
      refine hd outer d' hdo (eq_empty_iff.2 fun key => ?_)
      have hkey := congrArg (fun d => d.get? key) hu
      simp only [get?_unionWith, get?_empty, combine?_eq_none_iff] at hkey
      exact hkey.1

end Dict

/-! ## Sets of names -/

/-- A set holds the names that were added to it and those that it held before. -/
theorem NameSet.get?_foldl_add {α : Type*} (name : α → String) (l : List α) (s : NameSet)
    (key : String) : (l.foldl (fun s a => s.add (name a)) s).get? key =
      if l.any (name · = key) then some () else s.get? key := by
  induction l generalizing s with
  | nil => rfl
  | cons a l ih =>
    rw [List.foldl_cons, ih, List.any_cons, add, Dict.get?_insert]
    by_cases ha : name a = key
    · simp [ha]
    · simp [ha, Ne.symm ha]

/-- The set of some names holds these. -/
theorem NameSet.mem_keys_ofNames_iff {l : List String} {key : String} :
    key ∈ (ofNames l).keys ↔ key ∈ l := by
  have hget : (ofNames l).get? key = if l.any (· = key) then some () else none :=
    get?_foldl_add id l ∅ key
  rw [Dict.mem_keys_iff, hget]
  simp

end TrafficSchema
