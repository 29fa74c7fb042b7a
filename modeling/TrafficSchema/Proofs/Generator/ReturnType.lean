import Mathlib.Data.List.Forall2
import TrafficSchema.Generator.ReturnType
import TrafficSchema.Proofs.Shape.Leaves

/-!
# What a response returns

An entity is found in a response where a path of tags, none of which names an entity, leads to an
element that has the entity among its fields (`ShapeTree.Holds`). The search for return types lists
all findings once, in the order of a walk through the response, and gives the tag of the last
element on the way to all of them (`ReturnType.Describes`).

The search keeps results apart by the field below which they were found, and looks at their number
to tell whether they meet. `Fields.branches` lists the findings in the same groups. The paths of two
groups go different ways from the element in which they meet (`Finding.Diverge`), so the way to this
element is the longest that they share, and the lower way comes first in the walk.
-/

namespace TrafficSchema

/-! ## Findings -/

/-- An entity in the element that a path of tags leads to. -/
structure Finding where
  path : List String
  entity : String
  deriving DecidableEq

/-- What is found in a tree: the path leads to an element without passing an entity, and the entity
is a field of this element. -/
structure ShapeTree.Holds (t : ShapeTree) (names : NameSet) (m : Finding) : Prop where
  not_entity : ∀ tag ∈ m.path, ¬ names.contains tag
  entity : names.contains m.entity
  field : ∃ c, (Shape.tree t).at? m.path = some (.tree c) ∧ c.contains m.entity

namespace Finding

/-- The order of a walk that visits an element before the elements in it, and these in the order
of their tags: paths increase, and the entities in one element do. -/
def Precedes (m n : Finding) : Prop := m.path < n.path ∨ m.path = n.path ∧ m.entity < n.entity

theorem Precedes.ne {m n : Finding} (h : m.Precedes n) : m ≠ n := by
  rintro rfl
  rcases h with h | ⟨-, h⟩
  · exact List.lt_irrefl _ h
  · exact String.lt_irrefl _ h

/-- From the element at `path` two findings go different ways, the first one the lower. -/
def Diverge (path : List String) (m n : Finding) : Prop :=
  ∃ key key', key < key' ∧ path ++ [key] <+: m.path ∧ path ++ [key'] <+: n.path

variable {path q : List String} {key : String} {m n : Finding}

theorem Diverge.precedes (h : Diverge path m n) : m.Precedes n := by
  obtain ⟨key, key', hlt, ⟨r, hr⟩, ⟨s, hs⟩⟩ := h
  left
  rw [← hr, ← hs, List.append_assoc, List.append_assoc]
  exact List.append_left_lt (List.cons_lt_cons_iff.2 (.inl hlt))

/-- An element comes before the elements in it. -/
theorem precedes_of_inside (hm : m.path = path) (hn : path ++ [key] <+: n.path) :
    m.Precedes n := by
  obtain ⟨r, hr⟩ := hn
  have hlt : path ++ [] < path ++ ([key] ++ r) := List.append_left_lt (List.nil_lt_cons key r)
  rw [List.append_nil, ← List.append_assoc] at hlt
  left
  rw [hm, ← hr]
  exact hlt

/-- The way that two findings share ends where they diverge. -/
theorem Diverge.le_path (h : Diverge path m n) (hm : q <+: m.path) (hn : q <+: n.path) :
    q <+: path := by
  obtain ⟨key, key', hlt, hkey, hkey'⟩ := h
  have hpart : ¬ path ++ [key] <+: n.path := by
    intro h
    have hle := List.prefix_of_prefix_length_le h hkey' (by simp)
    have heq : key = key' := by simpa using List.IsPrefix.eq_of_length hle (by simp)
    rw [heq] at hlt
    exact String.lt_irrefl key' hlt
  rcases List.prefix_or_prefix_of_prefix hm hkey with hq | hq
  · rcases List.prefix_concat_iff.1 hq with rfl | hq
    · exact absurd hn hpart
    · exact hq
  · exact absurd (hq.trans hn) hpart

end Finding

/-! ## Descriptions -/

/-- The longest path that all of the given ones start with. -/
structure IsLongestCommonPrefix (q : List String) (paths : List (List String)) : Prop where
  common : ∀ p ∈ paths, q <+: p
  longest : ∀ r, (∀ p ∈ paths, r <+: p) → r <+: q

/-- A returned entity tells of a finding its name, the last tag of the path, and whether this is
the name in the plural. -/
structure EntityReturn.Describes (r : EntityReturn) (m : Finding) : Prop where
  entityName : r.entityName = m.entity
  containerTag : m.path.getLast? = some r.containerTag
  isCollection : r.isCollection ↔ r.containerTag = m.entity ++ "s"

/-- A return type tells of a list of findings each of them, and the last element on the way to all
of them. -/
structure ReturnType.Describes (r : ReturnType) (found : List Finding) : Prop where
  entities : List.Forall₂ EntityReturn.Describes r.entities found
  parentTag : found = [] ∧ r.parentTag = none ∨ found ≠ [] ∧
    ∃ q, IsLongestCommonPrefix q (found.map (·.path)) ∧ r.parentTag = q.getLast?

theorem EntityReturn.describes_entityIn {path : List String} {tag : String}
    (h : path.getLast? = some tag) (entity : String) :
    (ReturnType.entityIn tag entity).Describes ⟨path, entity⟩ :=
  ⟨rfl, h, beq_iff_eq⟩

namespace ReturnType

theorem describes_nil : Describes {} [] := ⟨.nil, .inl ⟨rfl, rfl⟩⟩

/-- Every entity that is returned was found. -/
theorem Describes.exists_of_mem {r : ReturnType} {found : List Finding} (h : r.Describes found)
    {e : EntityReturn} (he : e ∈ r.entities) : ∃ m ∈ found, e.Describes m := by
  obtain ⟨parentTag, entities⟩ := r
  have hentities : List.Forall₂ EntityReturn.Describes entities found := h.entities
  clear h
  induction hentities with
  | nil => cases he
  | @cons a m entities found ha _ ih =>
    rcases List.mem_cons.1 he with rfl | he
    · exact ⟨m, List.mem_cons_self, ha⟩
    · obtain ⟨m', hm', he⟩ := ih he
      exact ⟨m', List.mem_cons_of_mem m hm', he⟩

/-- A result that tells of findings in one element can be used just if there are any. -/
theorem Describes.isUsable_iff {r : ReturnType} {found : List Finding} (h : r.Describes found)
    {path : List String} {key : String} (hpath : ∀ m ∈ found, path ++ [key] <+: m.path) :
    r.isUsable ↔ found ≠ [] := by
  obtain ⟨hentities, ⟨rfl, hparent⟩ | ⟨hne, q, hq, hparent⟩⟩ := h
  · simp [isUsable, hparent]
  · have hkey : path ++ [key] <+: q := by
      apply hq.longest
      intro p hp
      obtain ⟨m, hm, rfl⟩ := List.mem_map.1 hp
      exact hpath m hm
    have hlast : q.getLast?.isSome := by
      rw [List.getLast?_isSome]
      rintro rfl
      exact absurd (List.prefix_nil.1 hkey) (by simp)
    have hnonempty : r.entities ≠ [] := by
      intro hnil
      rw [hnil] at hentities
      exact hne (List.forall₂_nil_left_iff.1 hentities)
    simp [isUsable, hparent, hlast, hnonempty, hne]

/-- **Results that meet**: those of an element tell of all findings in it, if no two of their groups
share more than the way to the element. -/
theorem describes_join {path : List String} {results : List ReturnType}
    {groups : List (List Finding)} (h : List.Forall₂ Describes results groups)
    (hne : ∀ found ∈ groups, found ≠ []) (hpath : ∀ m ∈ groups.flatten, path <+: m.path)
    (hpart : groups.Pairwise fun found found' => ∀ m ∈ found, ∀ n ∈ found', ∀ q,
      q <+: m.path → q <+: n.path → q <+: path) :
    (join path.getLast? results).Describes groups.flatten := by
  cases h with
  | nil => exact describes_nil
  | @cons r found results groups hfirst hrest =>
    cases hrest with
    | nil =>
      rw [List.flatten_cons, List.flatten_nil, List.append_nil]
      exact hfirst
    | @cons r' found' results groups hsecond hrest =>
      have hall : List.Forall₂ Describes (r :: r' :: results) (found :: found' :: groups) :=
        .cons hfirst (.cons hsecond hrest)
      obtain ⟨m, hm⟩ := List.exists_mem_of_ne_nil _ (hne found (by simp))
      obtain ⟨n, hn⟩ := List.exists_mem_of_ne_nil _ (hne found' (by simp))
      refine ⟨?_, .inr ⟨?_, path, ⟨?_, ?_⟩, rfl⟩⟩
      · rw [← List.flatMap_id']
        exact List.rel_flatMap hall fun _ _ hd => hd.entities
      · exact List.ne_nil_of_mem (List.mem_flatten.2 ⟨found, by simp, hm⟩)
      · intro p hp
        obtain ⟨k, hk, rfl⟩ := List.mem_map.1 hp
        exact hpath k hk
      · -- the first two groups already share no more
        intro q hq
        have hshared : ∀ k ∈ (found :: found' :: groups).flatten, q <+: k.path :=
          fun k hk => hq k.path (List.mem_map_of_mem hk)
        have hpart := (List.pairwise_cons.1 hpart).1 found' (by simp)
        exact hpart m hm n hn q (hshared m (by simp [hm])) (hshared n (by simp [hn]))

end ReturnType

/-! ## Groups -/

/-- A list of findings as a group, unless it is empty. -/
def Finding.group (found : List Finding) : List (List Finding) :=
  if found = [] then [] else [found]

/-- The entities among the keys of the element at `path`. -/
def Finding.own (names : NameSet) (path : List String) (keys : List String) : List Finding :=
  (keys.filter names.contains).map (Finding.mk path)

/-- What is found below the fields of the element at `path`, in a group for each field below which
something is found. -/
def Fields.branches (names : NameSet) : Fields → List String → List (List Finding)
  | nil, _ => []
  | leaf _ _ rest, path => rest.branches names path
  | node key children rest, path =>
    if names.contains key then rest.branches names path
    else
      Finding.group (Finding.own names (path ++ [key]) children.keys ++
        (children.branches names (path ++ [key])).flatten) ++ rest.branches names path

namespace Finding

variable {names : NameSet} {path : List String} {keys : List String} {m : Finding}

theorem mem_group_iff {found group : List Finding} :
    found ∈ Finding.group group ↔ found = group ∧ found ≠ [] := by
  unfold Finding.group
  split
  · rename_i h
    rw [h]
    simp
  · rename_i h
    rw [List.mem_singleton]
    exact ⟨fun heq => ⟨heq, heq ▸ h⟩, And.left⟩

@[simp] theorem flatten_group (found : List Finding) : (group found).flatten = found := by
  unfold group
  split
  · rename_i h
    rw [h]
    rfl
  · simp

theorem mem_own_iff :
    m ∈ own names path keys ↔ m.path = path ∧ names.contains m.entity ∧ m.entity ∈ keys := by
  rw [own, List.mem_map]
  simp only [List.mem_filter]
  constructor
  · rintro ⟨entity, ⟨hkey, hname⟩, rfl⟩
    exact ⟨rfl, hname, hkey⟩
  · rintro ⟨rfl, hname, hkey⟩
    exact ⟨m.entity, ⟨hkey, hname⟩, rfl⟩

/-- The entities in an element are found in the order of the keys. -/
theorem pairwise_own (h : keys.Pairwise (· < ·)) : (own names path keys).Pairwise Precedes := by
  refine List.pairwise_map.2 ((h.filter _).imp fun hlt => ?_)
  exact .inr ⟨rfl, hlt⟩

/-- The own result of an element tells what is found in it. -/
theorem describes_own (names : NameSet) {tag : String} (h : path.getLast? = some tag)
    (keys : List String) : List.Forall₂ ReturnType.Describes (ReturnType.own names tag keys)
      (group (own names path keys)) := by
  unfold own ReturnType.own
  rcases keys.filter names.contains with _ | ⟨entity, entities⟩
  · exact .nil
  refine .cons ⟨?_, .inr ⟨by simp, path, ⟨?_, ?_⟩, h.symm⟩⟩ .nil
  · exact List.forall₂_map_left_iff.2 (List.forall₂_map_right_iff.2
      (List.forall₂_same.2 fun e _ => EntityReturn.describes_entityIn h e))
  · intro p hp
    obtain ⟨m, hm, rfl⟩ := List.mem_map.1 hp
    obtain ⟨e, -, rfl⟩ := List.mem_map.1 hm
    exact List.prefix_rfl
  · exact fun r hr => hr path (by simp)

end Finding

namespace ShapeTree

variable {names : NameSet} {path : List String} {t : ShapeTree} {m : Finding}

/-- What is found in the element at `path`: first in its own fields, then below them. -/
def found (names : NameSet) (path : List String) (t : ShapeTree) : List Finding :=
  Finding.own names path t.fields.keys ++ (t.fields.branches names path).flatten

theorem mem_keys_iff {key : String} : key ∈ t.fields.keys ↔ t.contains key := by
  rw [Fields.keys_eq_map_entries t.fields t.sorted]
  exact Dict.mem_keys_iff (d := t.dict)

/-- A group of branches is what is found in a structured field that names no entity. -/
theorem mem_branches_iff {group : List Finding} :
    group ∈ t.fields.branches names path ↔ group ≠ [] ∧ ∃ key c, t.get? key = some (.tree c) ∧
      ¬ names.contains key ∧ group = c.found names (path ++ [key]) := by
  obtain ⟨fields, h⟩ := t
  simp only [← mem_entries_iff]
  change group ∈ fields.branches names path ↔ _ ∧ ∃ key c, (key, .tree c) ∈ fields.entries h ∧ _
  induction fields with
  | nil => simp [Fields.branches, Fields.entries]
  | leaf key tag rest ih => simp [Fields.branches, Fields.entries, ih h.afterLeaf]
  | node key children rest _ ih =>
    have hrest : ∀ P : String → ShapeTree → Prop,
        (∃ j c, (j, Shape.tree c) ∈ (Fields.node key children rest).entries h ∧ P j c) ↔
          P key ⟨children, h.children⟩ ∨
            ∃ j c, (j, Shape.tree c) ∈ rest.entries h.afterNode ∧ P j c := by
      simp [Fields.entries, or_and_right, exists_or]
    rw [hrest, and_or_left, ← ih h.afterNode, Fields.branches]
    by_cases hname : names.contains key
    · simp [hname]
    · rw [if_neg hname, List.mem_append, Finding.mem_group_iff]
      apply or_congr_left
      rw [and_comm, and_iff_right hname]
      rfl

/-- What is found in an element is among its own fields or found in one of them. -/
theorem mem_found_iff : m ∈ t.found names path ↔
    (m.path = path ∧ names.contains m.entity ∧ t.contains m.entity) ∨
      ∃ key c, t.get? key = some (.tree c) ∧ ¬ names.contains key ∧
        m ∈ c.found names (path ++ [key]) := by
  rw [found, List.mem_append, Finding.mem_own_iff, mem_keys_iff, List.mem_flatten]
  refine or_congr_right ?_
  simp only [mem_branches_iff]
  constructor
  · rintro ⟨_, ⟨-, key, c, hc, hname, rfl⟩, hm⟩
    exact ⟨key, c, hc, hname, hm⟩
  · rintro ⟨key, c, hc, hname, hm⟩
    exact ⟨_, ⟨List.ne_nil_of_mem hm, key, c, hc, hname, rfl⟩, hm⟩

/-- What is found in an element lies in it. -/
theorem le_path_of_mem_found (h : m ∈ t.found names path) : path <+: m.path := by
  induction t using ShapeTree.induction generalizing path with
  | step t ih =>
    obtain ⟨hpath, -⟩ | ⟨key, c, hc, -, hm⟩ := mem_found_iff.1 h
    · exact ⟨[], by rw [List.append_nil, hpath]⟩
    · exact (List.prefix_append path [key]).trans (ih key c hc hm)

/-! ## All findings -/

theorem holds_nil_iff {entity : String} :
    t.Holds names ⟨[], entity⟩ ↔ names.contains entity ∧ t.contains entity := by
  constructor
  · rintro ⟨-, hentity, c, hc, hfield⟩
    cases hc
    exact ⟨hentity, hfield⟩
  · rintro ⟨hentity, hfield⟩
    exact ⟨nofun, hentity, t, rfl, hfield⟩

theorem holds_cons_iff {key entity : String} {rest : List String} :
    t.Holds names ⟨key :: rest, entity⟩ ↔ ∃ c, t.get? key = some (.tree c) ∧
      ¬ names.contains key ∧ c.Holds names ⟨rest, entity⟩ := by
  constructor
  · rintro ⟨htags, hentity, d, hd, hfield⟩
    obtain ⟨hkey, hrest⟩ := List.forall_mem_cons.1 htags
    obtain ⟨a, ha, hd⟩ := Option.bind_eq_some_iff.1 hd
    cases a with
    | scalar x => cases rest <;> cases hd
    | tree c => exact ⟨c, ha, hkey, hrest, hentity, d, hd, hfield⟩
  · rintro ⟨c, hc, hkey, htags, hentity, d, hd, hfield⟩
    refine ⟨List.forall_mem_cons.2 ⟨hkey, htags⟩, hentity, d, ?_, hfield⟩
    exact Option.bind_eq_some_iff.2 ⟨.tree c, hc, hd⟩

/-- **All is found, and nothing else**, in the element at `path` and below it. -/
theorem mem_found_iff_holds :
    m ∈ t.found names path ↔ ∃ rest, m.path = path ++ rest ∧ t.Holds names ⟨rest, m.entity⟩ := by
  induction t using ShapeTree.induction generalizing path with
  | step t ih =>
    rw [mem_found_iff]
    constructor
    · rintro (⟨hpath, hown⟩ | ⟨key, c, hc, hname, hm⟩)
      · exact ⟨[], by simp [hpath], holds_nil_iff.2 hown⟩
      · obtain ⟨rest, hpath, hrest⟩ := (ih key c hc).1 hm
        exact ⟨key :: rest, by simp [hpath], holds_cons_iff.2 ⟨c, hc, hname, hrest⟩⟩
    · rintro ⟨_ | ⟨key, rest⟩, hpath, hholds⟩
      · exact .inl ⟨by simpa using hpath, holds_nil_iff.1 hholds⟩
      · obtain ⟨c, hc, hname, hrest⟩ := holds_cons_iff.1 hholds
        exact .inr ⟨key, c, hc, hname, (ih key c hc).2 ⟨rest, by simp [hpath], hrest⟩⟩

/-- What is found below the root. -/
theorem mem_flatten_branches_iff : m ∈ (t.fields.branches names []).flatten ↔
    m.path ≠ [] ∧ t.Holds names m := by
  rw [List.mem_flatten]
  simp only [mem_branches_iff, List.nil_append]
  constructor
  · rintro ⟨_, ⟨-, key, c, hc, hname, rfl⟩, hm⟩
    obtain ⟨rest, hpath, hrest⟩ := mem_found_iff_holds.1 hm
    obtain ⟨_, entity⟩ := m
    obtain rfl : _ = key :: rest := hpath
    exact ⟨nofun, holds_cons_iff.2 ⟨c, hc, hname, hrest⟩⟩
  · obtain ⟨_ | ⟨key, rest⟩, entity⟩ := m
    · exact fun h => absurd rfl h.1
    · rintro ⟨-, hholds⟩
      obtain ⟨c, hc, hname, hrest⟩ := holds_cons_iff.1 hholds
      have hm : ⟨key :: rest, entity⟩ ∈ c.found names [key] :=
        mem_found_iff_holds.2 ⟨rest, rfl, hrest⟩
      exact ⟨_, ⟨List.ne_nil_of_mem hm, key, c, hc, hname, rfl⟩, hm⟩

end ShapeTree

/-! ## The order of the walk -/

namespace Fields

variable {names : NameSet} {path : List String}

/-- Findings of one group go through one field. -/
theorem le_path_of_mem_branches {fields : Fields} (h : fields.Sorted) {group : List Finding}
    (hgroup : group ∈ fields.branches names path) :
    ∃ key ∈ fields.keys, ∀ m ∈ group, path ++ [key] <+: m.path := by
  obtain ⟨-, key, c, hc, -, rfl⟩ := (ShapeTree.mem_branches_iff (t := ⟨fields, h⟩)).1 hgroup
  refine ⟨key, ?_, fun m hm => ShapeTree.le_path_of_mem_found hm⟩
  rw [ShapeTree.mem_keys_iff (t := ⟨fields, h⟩), ShapeTree.contains, Dict.contains]
  exact Option.isSome_of_mem hc

/-- **Groups diverge** in the element that they meet in, in the order of their fields. -/
theorem pairwise_branches {fields : Fields} (h : fields.Sorted) :
    (fields.branches names path).Pairwise fun group group' =>
      ∀ m ∈ group, ∀ n ∈ group', m.Diverge path n := by
  induction fields with
  | nil => exact .nil
  | leaf key tag rest ih => exact ih h.afterLeaf
  | node key children rest _ ih =>
    rw [branches]
    split
    · exact ih h.afterNode
    · refine List.pairwise_append.2 ⟨?_, ih h.afterNode, ?_⟩
      · unfold Finding.group
        split <;> simp
      · intro group hgroup group' hgroup' m hm n hn
        obtain ⟨rfl, -⟩ := Finding.mem_group_iff.1 hgroup
        obtain ⟨key', hkey', hpath⟩ := le_path_of_mem_branches h.afterNode hgroup'
        have hm : m ∈ ShapeTree.found names (path ++ [key]) ⟨children, h.children⟩ := hm
        exact ⟨key, key', h.1 key' hkey', ShapeTree.le_path_of_mem_found hm, hpath n hn⟩

end Fields

namespace ShapeTree

variable {names : NameSet} {path : List String} {t : ShapeTree}

theorem pairwise_flatten_branches
    (h : ∀ key c, t.get? key = some (.tree c) → ∀ path,
      (c.found names path).Pairwise Finding.Precedes) :
    (t.fields.branches names path).flatten.Pairwise Finding.Precedes := by
  refine List.pairwise_flatten.2 ⟨fun group hgroup => ?_, ?_⟩
  · obtain ⟨-, key, c, hc, -, rfl⟩ := mem_branches_iff.1 hgroup
    exact h key c hc _
  · refine (Fields.pairwise_branches t.sorted).imp fun hdiverge m hm n hn => ?_
    exact (hdiverge m hm n hn).precedes

/-- **The findings are in the order of the walk.** -/
theorem pairwise_found : (t.found names path).Pairwise Finding.Precedes := by
  induction t using ShapeTree.induction generalizing path with
  | step t ih =>
    refine List.pairwise_append.2 ⟨?_, pairwise_flatten_branches fun key c hc _ => ih key c hc, ?_⟩
    · apply Finding.pairwise_own
      rw [Fields.keys_eq_map_entries t.fields t.sorted]
      exact List.pairwise_map.2 t.dict.sorted
    · intro m hm n hn
      obtain ⟨group, hgroup, hn⟩ := List.mem_flatten.1 hn
      obtain ⟨key, -, hpath⟩ := Fields.le_path_of_mem_branches t.sorted hgroup
      exact Finding.precedes_of_inside (Finding.mem_own_iff.1 hm).1 (hpath n hn)

end ShapeTree

/-! ## The search -/

namespace Fields

variable {names : NameSet} {path : List String}

/-- What is returned by the element at `path` tells what is found in it, if the results from below
its fields tell what is found there. -/
theorem describes_assemble {fields : Fields} (h : fields.Sorted) {tag : String}
    (hpath : path.getLast? = some tag)
    (hbelow : List.Forall₂ ReturnType.Describes (fields.returnTypes names)
      (fields.branches names path)) :
    (ReturnType.assemble names (some tag) fields.keys (fields.returnTypes names)).Describes
      (ShapeTree.found names path ⟨fields, h⟩) := by
  have hresults := List.rel_append (Finding.describes_own names hpath fields.keys) hbelow
  have hfound : ShapeTree.found names path ⟨fields, h⟩ =
      (Finding.group (Finding.own names path fields.keys) ++
        fields.branches names path).flatten := by
    rw [List.flatten_append, Finding.flatten_group]
    rfl
  rw [ReturnType.assemble, hfound, ← hpath]
  refine ReturnType.describes_join hresults ?_ ?_ ?_
  · intro group hgroup
    rcases List.mem_append.1 hgroup with hgroup | hgroup
    · exact (Finding.mem_group_iff.1 hgroup).2
    · exact ((ShapeTree.mem_branches_iff (t := ⟨fields, h⟩)).1 hgroup).1
  · intro m hm
    rw [← hfound] at hm
    exact ShapeTree.le_path_of_mem_found hm
  · refine List.pairwise_append.2 ⟨?_, ?_, ?_⟩
    · unfold Finding.group
      split <;> simp
    · exact (pairwise_branches h).imp fun hdiverge m hm n hn q => (hdiverge m hm n hn).le_path
    · -- the own findings lie in the element, so with them nothing more is shared
      intro group hgroup group' _ m hm n _ q hq _
      obtain ⟨rfl, -⟩ := Finding.mem_group_iff.1 hgroup
      rwa [(Finding.mem_own_iff.1 hm).1] at hq

/-- **The search mirrors the groups**: one result for each, which tells what is found. -/
theorem describes_returnTypes (fields : Fields) (names : NameSet) (h : fields.Sorted)
    (path : List String) :
    List.Forall₂ ReturnType.Describes (fields.returnTypes names) (fields.branches names path) := by
  induction fields generalizing path with
  | nil => exact .nil
  | leaf key tag rest ih => exact ih h.afterLeaf path
  | node key children rest ihc ih =>
    have hlast : (path ++ [key]).getLast? = some key := List.getLast?_concat
    have hchild := describes_assemble h.children hlast (ihc h.children (path ++ [key]))
    have husable := hchild.isUsable_iff fun m hm => ShapeTree.le_path_of_mem_found hm
    rw [returnTypes, branches]
    by_cases hname : names.contains key
    · rw [if_pos hname, if_pos hname]
      exact ih h.afterNode path
    rw [if_neg hname, if_neg hname]
    change List.Forall₂ _ (if _ then _ else _)
      (Finding.group (ShapeTree.found names (path ++ [key]) ⟨children, h.children⟩) ++ _)
    unfold Finding.group
    by_cases hnil : ShapeTree.found names (path ++ [key]) ⟨children, h.children⟩ = []
    · rw [if_pos hnil, if_neg fun hr => husable.1 hr hnil]
      exact ih h.afterNode path
    · rw [if_neg hnil, if_pos (husable.2 hnil)]
      exact .cons hchild (ih h.afterNode path)

end Fields

/-- The search tells what is found below the root. -/
theorem ShapeTree.describes_resolveReturnType (response : ShapeTree) (names : NameSet) :
    (resolveReturnType response names).Describes
      (response.fields.branches names []).flatten := by
  have hresults := response.fields.describes_returnTypes names response.sorted []
  have hne : ∀ group ∈ response.fields.branches names [], group ≠ [] :=
    fun _ hgroup => (mem_branches_iff.1 hgroup).1
  have hroot : ∀ m ∈ (response.fields.branches names []).flatten, [] <+: m.path :=
    fun m _ => ⟨m.path, rfl⟩
  refine ReturnType.describes_join hresults hne hroot ?_
  refine (Fields.pairwise_branches response.sorted).imp fun hdiverge m hm n hn q => ?_
  exact (hdiverge m hm n hn).le_path

/-- **What a response returns is what a walk through it finds**: every entity in an element below
the root that is reached without passing an entity, each once and in the order of the walk, and the
tag of the last element on the way to all of them. -/
theorem exists_describes_resolveReturnType (response : ShapeTree) (names : NameSet) :
    ∃ found : List Finding, (∀ m, m ∈ found ↔ m.path ≠ [] ∧ response.Holds names m) ∧
      found.Nodup ∧ found.Pairwise Finding.Precedes ∧
      (resolveReturnType response names).Describes found := by
  have horder : (response.fields.branches names []).flatten.Pairwise Finding.Precedes :=
    ShapeTree.pairwise_flatten_branches fun _ _ _ _ => ShapeTree.pairwise_found
  exact ⟨(response.fields.branches names []).flatten,
    fun m => ShapeTree.mem_flatten_branches_iff, horder.imp Finding.Precedes.ne, horder,
    response.describes_resolveReturnType names⟩

end TrafficSchema
