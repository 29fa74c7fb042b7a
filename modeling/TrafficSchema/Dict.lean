/-!
# Dictionaries with text keys

A `Dict α` maps finitely many strings to values of `α`. Its entries are kept in increasing
order of the keys, each key once; the order of strings is that of their code points, which is
also the order of their UTF-8 bytes. Sortedness is part of the type, so a dictionary is
determined by its lookups (`Dict.ext_get?`), and whatever is read off the entries does not
depend on the order in which they were put in.

* `Dict.upsert` is the one operation that writes: it replaces what a key holds, if anything,
  by a value computed from it. `insert` and `ofList` are its special cases.
* `Dict.get?_upsert`, `Dict.get?_erase`, `Dict.get?_map` and `Dict.get?_filterMap` say what a
  lookup finds after each operation.
-/

namespace TrafficSchema

universe u v w

variable {α : Type u} {β : Type v} {γ : Type w}

/-! ## Association lists with increasing keys -/

namespace Dict

/-- Replaces what `key` holds by `f` of it, in a list whose keys increase. -/
def upsertEntry (key : String) (f : Option α → α) : List (String × α) → List (String × α)
  | [] => [(key, f none)]
  | (k, a) :: rest =>
    if key < k then (key, f none) :: (k, a) :: rest
    else if key = k then (key, f (some a)) :: rest
    else (k, a) :: upsertEntry key f rest

/-- The value of the first entry with the given key. -/
def findEntry (key : String) : List (String × α) → Option α
  | [] => none
  | (k, a) :: rest => if key = k then some a else findEntry key rest

theorem mem_upsertEntry {key : String} {f : Option α → α} {l : List (String × α)}
    {e : String × α} (h : e ∈ upsertEntry key f l) : e.1 = key ∨ e ∈ l := by
  induction l with
  | nil => simp_all [upsertEntry]
  | cons head rest ih =>
    obtain ⟨k, a⟩ := head
    simp only [upsertEntry] at h
    split at h
    · grind
    · split at h <;> grind

theorem pairwise_upsertEntry {key : String} {f : Option α → α} {l : List (String × α)}
    (h : l.Pairwise (·.1 < ·.1)) : (upsertEntry key f l).Pairwise (·.1 < ·.1) := by
  induction l with
  | nil => simp [upsertEntry]
  | cons head rest ih =>
    obtain ⟨k, a⟩ := head
    simp only [List.pairwise_cons] at h
    simp only [upsertEntry]
    split
    · rename_i hlt
      simp only [List.pairwise_cons, List.mem_cons]
      refine ⟨?_, h⟩
      rintro e (rfl | he)
      · exact hlt
      · exact String.lt_trans hlt (h.1 e he)
    · split
      · rename_i heq
        subst heq
        simpa using h
      · rename_i hlt hne
        simp only [List.pairwise_cons]
        refine ⟨fun e he => ?_, ih h.2⟩
        rcases mem_upsertEntry he with he | he
        · rw [he]
          exact Decidable.byContradiction fun hk =>
            hne (String.le_antisymm (String.not_lt.1 hk) (String.not_lt.1 hlt))
        · exact h.1 e he

theorem findEntry_eq_none {key : String} {l : List (String × α)}
    (h : ∀ e ∈ l, key < e.1) : findEntry key l = none := by
  induction l with
  | nil => rfl
  | cons head rest ih =>
    have hk := h head (by simp)
    have : key ≠ head.1 := fun hkey => String.lt_irrefl head.1 (hkey ▸ hk)
    simp only [findEntry, this, if_false]
    exact ih fun e he => h e (by simp [he])

theorem findEntry_upsertEntry (key j : String) (f : Option α → α) {l : List (String × α)}
    (h : l.Pairwise (·.1 < ·.1)) :
    findEntry j (upsertEntry key f l) =
      if j = key then some (f (findEntry key l)) else findEntry j l := by
  induction l with
  | nil => simp [upsertEntry, findEntry]
  | cons head rest ih =>
    obtain ⟨k, a⟩ := head
    simp only [List.pairwise_cons] at h
    simp only [upsertEntry]
    split
    · rename_i hlt
      have hne : key ≠ k := fun hk => String.lt_irrefl k (hk ▸ hlt)
      have hnone : findEntry key rest = none :=
        findEntry_eq_none fun e he => String.lt_trans hlt (h.1 e he)
      simp [findEntry, hne, hnone]
    · split
      · rename_i heq
        subst heq
        by_cases hj : j = key <;> simp [findEntry, hj]
      · rename_i hne
        simp only [findEntry, ih h.2, hne, if_false]
        by_cases hj : j = k
        · subst hj
          simp [Ne.symm hne]
        · simp [hj]

theorem mem_iff_findEntry {key : String} {a : α} {l : List (String × α)}
    (h : l.Pairwise (·.1 < ·.1)) : (key, a) ∈ l ↔ findEntry key l = some a := by
  induction l with
  | nil => simp [findEntry]
  | cons head rest ih =>
    obtain ⟨k, b⟩ := head
    simp only [List.pairwise_cons] at h
    simp only [findEntry, List.mem_cons, Prod.mk.injEq]
    by_cases hk : key = k
    · subst hk
      have hnot : (key, a) ∉ rest := fun hm => String.lt_irrefl key (h.1 _ hm)
      simp [hnot, eq_comm]
    · simp [hk, ih h.2]

/-- Two lists with increasing keys and the same lookups are the same list. -/
theorem eq_of_findEntry {l m : List (String × α)} (hl : l.Pairwise (·.1 < ·.1))
    (hm : m.Pairwise (·.1 < ·.1)) (h : ∀ key, findEntry key l = findEntry key m) : l = m := by
  induction l generalizing m with
  | nil =>
    cases m with
    | nil => rfl
    | cons head rest => simpa [findEntry] using h head.1
  | cons head rest ih =>
    obtain ⟨k, a⟩ := head
    cases m with
    | nil => simpa [findEntry] using h k
    | cons head' rest' =>
      obtain ⟨k', a'⟩ := head'
      simp only [List.pairwise_cons] at hl hm
      have hk : k = k' := by
        by_cases hlt : k < k'
        · have hnone : findEntry k ((k', a') :: rest') = none :=
            findEntry_eq_none fun e he => by
              rcases List.mem_cons.1 he with rfl | he
              · exact hlt
              · exact String.lt_trans hlt (hm.1 e he)
          have := h k
          rw [hnone] at this
          simp [findEntry] at this
        · by_cases hgt : k' < k
          · have hnone : findEntry k' ((k, a) :: rest) = none :=
              findEntry_eq_none fun e he => by
                rcases List.mem_cons.1 he with rfl | he
                · exact hgt
                · exact String.lt_trans hgt (hl.1 e he)
            have := h k'
            rw [hnone] at this
            simp [findEntry] at this
          · exact String.le_antisymm (String.not_lt.1 hgt) (String.not_lt.1 hlt)
      subst hk
      have ha : a = a' := by simpa [findEntry] using h k
      subst ha
      have hrest : rest = rest' := ih hl.2 hm.2 fun key => by
        by_cases hkey : key = k
        · subst hkey
          rw [findEntry_eq_none hl.1, findEntry_eq_none hm.1]
        · simpa [findEntry, hkey] using h key
      rw [hrest]

end Dict

/-! ## The type -/

/-- A finite map from strings to `α`, its entries in increasing order of the keys. -/
structure Dict (α : Type u) where
  entries : List (String × α)
  sorted : entries.Pairwise (·.1 < ·.1)
  deriving DecidableEq

namespace Dict

/-- The dictionary that holds nothing. -/
def empty : Dict α := ⟨[], .nil⟩

instance : EmptyCollection (Dict α) := ⟨empty⟩

instance : Inhabited (Dict α) := ⟨empty⟩

/-- What `key` holds. -/
def get? (d : Dict α) (key : String) : Option α := findEntry key d.entries

/-- Whether `key` holds anything. -/
def contains (d : Dict α) (key : String) : Bool := (d.get? key).isSome

/-- Replaces what `key` holds, if anything, by `f` of it. -/
def upsert (d : Dict α) (key : String) (f : Option α → α) : Dict α :=
  ⟨upsertEntry key f d.entries, pairwise_upsertEntry d.sorted⟩

/-- Lets `key` hold `a`, whatever it held. -/
def insert (d : Dict α) (key : String) (a : α) : Dict α := d.upsert key fun _ => a

/-- Lets `key` hold nothing. -/
def erase (d : Dict α) (key : String) : Dict α :=
  ⟨d.entries.filter (·.1 ≠ key), d.sorted.filter _⟩

/-- The dictionary of a list of entries; of several with one key the last counts. -/
def ofList (l : List (String × α)) : Dict α := l.foldl (fun d e => d.insert e.1 e.2) ∅

/-- The keys, in increasing order. -/
def keys (d : Dict α) : List String := d.entries.map (·.1)

/-- The values, in the order of their keys. -/
def values (d : Dict α) : List α := d.entries.map (·.2)

/-- The number of keys. -/
def size (d : Dict α) : Nat := d.entries.length

/-- The sum of what the values count for. -/
def sumBy (count : α → Nat) (d : Dict α) : Nat :=
  d.entries.foldr (fun e n => count e.2 + n) 0

/-- Whether there is no key at all. -/
def isEmpty (d : Dict α) : Bool := d.entries.isEmpty

/-- Changes every value, looking at its key too. -/
def map (f : String → α → β) (d : Dict α) : Dict β :=
  ⟨d.entries.map fun e => (e.1, f e.1 e.2), d.sorted.map _ fun _ _ h => h⟩

/-- Changes every value, dropping the keys for which there is no new one. -/
def filterMap (f : String → α → Option β) (d : Dict α) : Dict β :=
  ⟨d.entries.filterMap fun e => (f e.1 e.2).map fun b => (e.1, b), by
    refine List.Pairwise.filterMap _ ?_ d.sorted
    intro e e' h b hb b' hb'
    simp only [Option.map_eq_some_iff] at hb hb'
    obtain ⟨_, _, rfl⟩ := hb
    obtain ⟨_, _, rfl⟩ := hb'
    exact h⟩

/-- The keys of both dictionaries; what both hold under one key is combined by `f`. -/
def unionWith (f : α → α → α) (d e : Dict α) : Dict α :=
  e.entries.foldl (fun acc (key, b) => acc.upsert key fun
    | none => b
    | some a => f a b) d

/-- Runs through the entries in the order of their keys. -/
def foldl (f : β → String → α → β) (b : β) (d : Dict α) : β :=
  d.entries.foldl (fun acc e => f acc e.1 e.2) b

/-- Runs through the entries in the order of their keys, stopping at the first failure. -/
def foldlM {m : Type v → Type w} [Monad m] (f : β → String → α → m β) (b : β) (d : Dict α) :
    m β :=
  d.entries.foldlM (fun acc e => f acc e.1 e.2) b

/-! ## Lookups determine a dictionary -/

theorem mem_entries_iff {d : Dict α} {key : String} {a : α} :
    (key, a) ∈ d.entries ↔ d.get? key = some a :=
  mem_iff_findEntry d.sorted

theorem mem_keys_iff {d : Dict α} {key : String} : key ∈ d.keys ↔ (d.get? key).isSome := by
  simp only [keys, List.mem_map, Option.isSome_iff_exists]
  constructor
  · rintro ⟨⟨k, a⟩, he, rfl⟩
    exact ⟨a, mem_entries_iff.1 he⟩
  · rintro ⟨a, ha⟩
    exact ⟨(key, a), mem_entries_iff.2 ha, rfl⟩

@[ext] theorem ext_get? {d e : Dict α} (h : ∀ key, d.get? key = e.get? key) : d = e := by
  obtain ⟨l, hl⟩ := d
  obtain ⟨m, hm⟩ := e
  obtain rfl : l = m := eq_of_findEntry hl hm h
  rfl

@[simp] theorem get?_empty (key : String) : (∅ : Dict α).get? key = none := rfl

@[simp] theorem get?_upsert (d : Dict α) (key j : String) (f : Option α → α) :
    (d.upsert key f).get? j = if j = key then some (f (d.get? key)) else d.get? j :=
  findEntry_upsertEntry key j f d.sorted

@[simp] theorem get?_insert (d : Dict α) (key j : String) (a : α) :
    (d.insert key a).get? j = if j = key then some a else d.get? j := by
  simp [insert]

@[simp] theorem get?_erase (d : Dict α) (key j : String) :
    (d.erase key).get? j = if j = key then none else d.get? j := by
  obtain ⟨l, hl⟩ := d
  simp only [get?, erase]
  clear hl
  induction l with
  | nil => simp [findEntry]
  | cons head rest ih =>
    by_cases hk : head.1 = key <;> by_cases hj : j = key <;> grind [findEntry]

@[simp] theorem get?_map (f : String → α → β) (d : Dict α) (key : String) :
    (d.map f).get? key = (d.get? key).map (f key) := by
  obtain ⟨l, hl⟩ := d
  simp only [get?, map]
  clear hl
  induction l with
  | nil => rfl
  | cons head rest ih =>
    by_cases hk : key = head.1 <;> simp [findEntry, hk, ih]

@[simp] theorem get?_filterMap (f : String → α → Option β) (d : Dict α) (key : String) :
    (d.filterMap f).get? key = (d.get? key).bind (f key) := by
  refine Option.ext fun b => ?_
  rw [← mem_entries_iff]
  simp only [filterMap, List.mem_filterMap, Option.map_eq_some_iff, Prod.mk.injEq,
    Option.bind_eq_some_iff]
  constructor
  · rintro ⟨⟨k, a⟩, he, b', hb, rfl, rfl⟩
    exact ⟨a, mem_entries_iff.1 he, hb⟩
  · rintro ⟨a, ha, hb⟩
    exact ⟨(key, a), mem_entries_iff.2 ha, b, hb, rfl, rfl⟩

/-- What two lookups give when two dictionaries are combined. -/
def combine? (f : α → α → α) : Option α → Option α → Option α
  | none, y => y
  | x, none => x
  | some a, some b => some (f a b)

/-- Combining works key by key. -/
@[simp] theorem get?_unionWith (f : α → α → α) (d e : Dict α) (key : String) :
    (d.unionWith f e).get? key = combine? f (d.get? key) (e.get? key) := by
  obtain ⟨l, hl⟩ := e
  simp only [unionWith]
  show _ = combine? f (d.get? key) (findEntry key l)
  induction l generalizing d with
  | nil =>
    simp only [List.foldl_nil, findEntry]
    cases d.get? key <;> rfl
  | cons head rest ih =>
    obtain ⟨k, b⟩ := head
    simp only [List.pairwise_cons] at hl
    simp only [List.foldl_cons, findEntry]
    rw [ih _ hl.2, get?_upsert]
    by_cases hk : key = k
    · subst hk
      rw [findEntry_eq_none hl.1]
      cases d.get? key <;> simp [combine?]
    · simp [hk]

end Dict

/-! ## Sets of names -/

/-- A finite set of strings, listed in increasing order. -/
abbrev NameSet := Dict Unit

namespace NameSet

/-- Adds a name. -/
def add (s : NameSet) (name : String) : NameSet := s.insert name ()

/-- The set of the names in a list. -/
def ofNames (l : List String) : NameSet := l.foldl add ∅

end NameSet

end TrafficSchema
