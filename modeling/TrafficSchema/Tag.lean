/-!
# Type tags

A tag is the type inferred for one scalar field. Tags are linearly ordered, from "nothing seen
yet" up to references, and the type of a field seen several times is the greatest of the tags
seen (`Tag.join`).

A schema file writes a tag as a name. A name that is no builtin type is a reference, so a
reference whose own name would be read as something else is written with an `@` in front
(`Tag.persistedName`), and reading drops one `@` (`Tag.ofName_persistedName`).
-/

namespace TrafficSchema

/-- The inferred type of a scalar field. -/
inductive Tag
  /-- No value was seen. -/
  | none
  /-- A timestamp `YYYY-MM-DDTHH:MM:SS`, with an optional fraction and an optional `Z`. -/
  | datetime
  /-- `true` or `false`. -/
  | bool
  /-- An integer that a double holds exactly. -/
  | int
  /-- Any other number within the range of a double. -/
  | float
  /-- Any other text. -/
  | str
  /-- A placeholder for the child elements with the given tag name. -/
  | reference (name : String)
  deriving DecidableEq, Inhabited

namespace Tag

/-! ## Order -/

/-- The place of a tag in the order; all references share the top place. -/
def rank : Tag → Nat
  | none => 0
  | datetime => 1
  | bool => 2
  | int => 3
  | float => 4
  | str => 5
  | reference _ => 6

/-- The name that a reference refers to, empty for a builtin type. -/
def target : Tag → String
  | reference name => name
  | _ => ""

/-- Tags are ordered by rank, and references among each other by the names they refer to. -/
def le (s t : Tag) : Prop := s.rank < t.rank ∨ s.rank = t.rank ∧ s.target ≤ t.target

instance : LE Tag := ⟨le⟩

instance : DecidableRel (α := Tag) (· ≤ ·) := fun s t =>
  inferInstanceAs (Decidable (s.rank < t.rank ∨ s.rank = t.rank ∧ s.target ≤ t.target))

theorem le_def {s t : Tag} :
    s ≤ t ↔ s.rank < t.rank ∨ s.rank = t.rank ∧ s.target ≤ t.target := Iff.rfl

protected theorem le_refl (t : Tag) : t ≤ t := .inr ⟨rfl, String.le_refl _⟩

protected theorem le_total (s t : Tag) : s ≤ t ∨ t ≤ s := by
  simp only [le_def]
  rcases String.le_total s.target t.target with h | h <;> grind

protected theorem le_trans {s t u : Tag} (hst : s ≤ t) (htu : t ≤ u) : s ≤ u := by
  simp only [le_def] at *
  rcases hst with hst | ⟨hst, h⟩ <;> rcases htu with htu | ⟨htu, h'⟩
  · exact .inl (by omega)
  · exact .inl (by omega)
  · exact .inl (by omega)
  · exact .inr ⟨by omega, String.le_trans h h'⟩

protected theorem le_antisymm {s t : Tag} (hst : s ≤ t) (hts : t ≤ s) : s = t := by
  simp only [le_def] at *
  have hr : s.rank = t.rank := by omega
  have hn : s.target = t.target := String.le_antisymm (by grind) (by grind)
  cases s <;> cases t <;> simp_all [rank, target]

theorem none_le (t : Tag) : none ≤ t := by
  cases t <;> simp [le_def, rank, target]

/-- The order as a comparison. -/
def cmp (s t : Tag) : Ordering := if s = t then .eq else if s ≤ t then .lt else .gt

/-- The greater of two tags: the type of a field that was seen with both. -/
def join (s t : Tag) : Tag := if s ≤ t then t else s

theorem le_join_left (s t : Tag) : s ≤ s.join t := by
  unfold join
  split
  · assumption
  · exact Tag.le_refl s

theorem le_join_right (s t : Tag) : t ≤ s.join t := by
  unfold join
  split
  · exact Tag.le_refl t
  · rename_i h
    exact (Tag.le_total s t).resolve_left h

theorem join_le {s t u : Tag} (hs : s ≤ u) (ht : t ≤ u) : s.join t ≤ u := by
  unfold join
  split <;> assumption

@[simp] theorem join_none (t : Tag) : t.join none = t :=
  Tag.le_antisymm (join_le (Tag.le_refl t) (none_le t)) (le_join_left t none)

@[simp] theorem none_join (t : Tag) : none.join t = t :=
  Tag.le_antisymm (join_le (none_le t) (Tag.le_refl t)) (le_join_right none t)

/-! ## Names -/

/-- Whether the tag is a reference. -/
def isReference : Tag → Bool
  | reference _ => true
  | _ => false

/-- The name of a tag: of a builtin type its own, of a reference the name referred to. -/
def name : Tag → String
  | none => "none"
  | datetime => "datetime"
  | bool => "bool"
  | int => "int"
  | float => "float"
  | str => "str"
  | reference name => name

/-- The tag that a name in a schema file stands for. One `@` in front of a reference is not
part of its name. -/
def ofName (name : String) : Tag :=
  if name = "" ∨ name = "none" then none
  else if name = "datetime" then datetime
  else if name = "bool" then bool
  else if name = "int" then int
  else if name = "float" then float
  else if name = "str" then str
  else match name.toList with
    | '@' :: rest => reference (String.ofList rest)
    | _ => reference name

/-- The name that a schema file holds: a reference is marked by an `@` where its bare name
would be read as a builtin type, or as a name that is marked already. -/
def persistedName : Tag → String
  | reference name =>
    if name.toList.head? = some '@' ∨ (ofName name).isReference = false then "@" ++ name
    else name
  | t => t.name

theorem ofName_marked (name : String) : ofName ("@" ++ name) = reference name := by
  have h (s : String) (hs : s.toList.head? ≠ some '@') : "@" ++ name ≠ s := by
    rintro rfl
    exact hs (by simp)
  have h₁ := h "none" (by decide)
  have h₂ := h "datetime" (by decide)
  have h₃ := h "bool" (by decide)
  have h₄ := h "int" (by decide)
  have h₅ := h "float" (by decide)
  have h₆ := h "str" (by decide)
  simp [ofName, h₁, h₂, h₃, h₄, h₅, h₆]

/-- Reading the name of a tag in a schema file gives the tag back. -/
theorem ofName_persistedName (t : Tag) : ofName t.persistedName = t := by
  cases t with
  | reference name =>
    simp only [persistedName]
    split
    · exact ofName_marked name
    · rename_i h
      simp only [not_or] at h
      obtain ⟨hat, href⟩ := h
      revert href
      simp only [ofName]
      repeat' split
      all_goals simp_all [isReference]
  | _ => decide

end Tag

end TrafficSchema
