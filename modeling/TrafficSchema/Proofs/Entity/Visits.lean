import Mathlib.Data.List.Induction
import TrafficSchema.Proofs.Entity.Discovery

/-!
# What an extraction is

Extracting entities visits the fields of a tree that hold structures, and in each visited element
those that do not hold its attributes (`ShapeTree.Visits`). An element with attributes that have no
version stands for an entity (`ShapeTree.IsEntity`). What an extraction is to give is told by these
two alone (`Extraction.Splits`): the attributes of the visited elements that stand for entities are
taken out, and nothing else, and each name of such elements has the join of their attributes and of
references to their children.

There is just one such extraction, and it is the one that is computed (`extractEntities_eq_iff`).
Both of its parts are followed along paths, by induction on the tree: what is left over
(`ShapeTree.kindAt?_residualAt_inside`), and what is discovered
(`ShapeTree.mem_discoveries_iff_at?`).
-/

namespace TrafficSchema

namespace ShapeTree

/-! ## Visited elements -/

/-- The elements that are visited in a tree, each with the path to it. -/
inductive Visits (t : ShapeTree) : List String → ShapeTree → Prop
  | outermost {key : String} {n : ShapeTree} (h : t.get? key = some (.tree n)) : Visits t [key] n
  | inside {path : List String} {key : String} {n c : ShapeTree} (hn : Visits t path n)
      (hkey : key ≠ attributesKey) (h : n.get? key = some (.tree c)) : Visits t (path ++ [key]) c

/-- An element with attributes, none of which is a version, stands for an entity. -/
structure IsEntity (n attributes : ShapeTree) : Prop where
  held : n.get? attributesKey = some (.tree attributes)
  nonempty : attributes ≠ ∅
  unversioned : ¬ attributes.contains versionAttribute

variable {t n attributes u : ShapeTree} {path : List String} {key : String} {kind : Option Tag}

theorem isEntity_iff : n.IsEntity attributes ↔ n.entityAttributes? = some attributes := by
  have hfilter : n.entityAttributes? = some attributes ↔ n.attributes? = some attributes ∧
      attributes ≠ ∅ ∧ ¬ attributes.contains versionAttribute := by
    rw [entityAttributes?, Option.filter_eq_some_iff, Bool.and_eq_true, Bool.not_eq_true',
      Bool.not_eq_true', ← Bool.not_eq_true, ← Bool.not_eq_true, isEmpty_iff]
  rw [hfilter]
  constructor
  · rintro ⟨hheld, hne, hversion⟩
    refine ⟨?_, hne, hversion⟩
    rw [attributes?, hheld]
    rfl
  · rintro ⟨hheld, hne, hversion⟩
    have hentity := hfilter.2 ⟨hheld, hne, hversion⟩
    exact ⟨get?_of_entityAttributes?_eq_some hentity, hne, hversion⟩

theorem not_visits_nil : ¬ t.Visits [] n := by
  intro h
  generalize hpath : [] = path at h
  cases h with
  | outermost => cases hpath
  | inside => simp at hpath

/-- The path to an element that is visited starts with any field of the tree, and does not go
through attributes after that. -/
theorem visits_cons_iff : t.Visits (key :: path) n ↔ ∃ c, t.get? key = some (.tree c) ∧
    attributesKey ∉ path ∧ (Shape.tree c).at? path = some (.tree n) := by
  constructor
  · intro h
    generalize hpath : key :: path = path' at h
    induction h generalizing path with
    | outermost h =>
      cases hpath
      exact ⟨_, h, List.not_mem_nil, Shape.at?_nil _⟩
    | @inside before last n c hn hlast h ih =>
      cases before with
      | nil => exact absurd hn not_visits_nil
      | cons first before =>
        cases hpath
        obtain ⟨d, hd, hbefore, hn⟩ := ih rfl
        refine ⟨d, hd, ?_, Shape.at?_concat_eq_some_iff.2 ⟨n, hn, h⟩⟩
        simpa [hbefore] using hlast.symm
  · rintro ⟨c, hc, hpath, hn⟩
    induction path using List.reverseRecOn generalizing n with
    | nil =>
      cases hn
      exact .outermost hc
    | append_singleton path last ih =>
      obtain ⟨d, hd, hn⟩ := Shape.at?_concat_eq_some_iff.1 hn
      rw [List.mem_append, not_or, List.mem_singleton] at hpath
      exact .inside (ih hpath.1 hd) (Ne.symm hpath.2) hn

theorem visits_iff : t.Visits path n ↔
    path ≠ [] ∧ attributesKey ∉ path.tail ∧ (Shape.tree t).at? path = some (.tree n) := by
  cases path with
  | nil => exact iff_of_false not_visits_nil fun h => h.1 rfl
  | cons key path =>
    rw [visits_cons_iff, Shape.at?_tree_cons, Option.bind_eq_some_iff]
    constructor
    · rintro ⟨c, hc, hpath, hn⟩
      exact ⟨List.cons_ne_nil key path, hpath, .tree c, hc, hn⟩
    · rintro ⟨-, hpath, a, ha, hn⟩
      obtain ⟨c, rfl⟩ := Shape.exists_eq_tree_of_at? hn
      exact ⟨c, ha, hpath, hn⟩

/-- No element that is visited in a residual stands for an entity. -/
theorem Residual.entityFree_of_visits (ht : t.Residual) (h : t.Visits path n) : n.EntityFree := by
  induction h with
  | outermost h => exact ht _ _ h
  | inside _ hkey h ih =>
    obtain ⟨-, children⟩ := ih
    exact children _ _ hkey h

/-- **The elements that are left over are visited as before**, each without what is taken out of
it. -/
theorem visits_residual_iff {c : ShapeTree} : (extractEntities t).residual.Visits path c ↔
    ∃ n, t.Visits path n ∧ c = n.residualAt (.inside n) := by
  constructor
  · intro h
    induction h with
    | outermost h =>
      obtain ⟨⟨-, hplace⟩, -⟩ | ⟨-, n, hn, rfl⟩ := of_get?_residualAt_eq_tree h
      · exact absurd rfl hplace
      · exact ⟨n, .outermost hn, rfl⟩
    | inside _ hkey h ih =>
      obtain ⟨n, hn, rfl⟩ := ih
      obtain ⟨⟨hattributes, -⟩, -⟩ | ⟨-, d, hd, rfl⟩ := of_get?_residualAt_eq_tree h
      · exact absurd hattributes hkey
      · exact ⟨d, .inside hn hkey hd, rfl⟩
  · rintro ⟨n, hn, rfl⟩
    induction hn with
    | outermost h => exact .outermost (get?_residualAt_of_tree (fun hskips => hskips.2 rfl) h)
    | @inside before last m c _ hkey h ih =>
      have hvisited : ¬ (Place.inside m).skips last :=
        fun hskips => hkey (skips_inside_iff.1 hskips)
      exact .inside ih hkey (get?_residualAt_of_tree hvisited h)

/-! ## What is taken out -/

/-- A path leads to the attributes of an element that is visited and stands for an entity, or into
them. -/
def TakesOut (t : ShapeTree) (path : List String) : Prop :=
  ∃ before after n attributes, path = before ++ attributesKey :: after ∧ t.Visits before n ∧
    n.IsEntity attributes

/-- The same for a path that starts in an element that is visited. -/
def TakesOutInside (t : ShapeTree) (path : List String) : Prop :=
  ∃ before after n attributes, path = before ++ attributesKey :: after ∧ attributesKey ∉ before ∧
    (Shape.tree t).at? before = some (.tree n) ∧ n.IsEntity attributes

theorem not_takesOut_nil : ¬ t.TakesOut [] := by
  rintro ⟨_ | _, after, n, attributes, hpath, -⟩ <;> cases hpath

theorem not_takesOutInside_nil : ¬ t.TakesOutInside [] := by
  rintro ⟨_ | _, after, n, attributes, hpath, -⟩ <;> cases hpath

theorem takesOut_cons_iff : t.TakesOut (key :: path) ↔
    ∃ c, t.get? key = some (.tree c) ∧ c.TakesOutInside path := by
  constructor
  · rintro ⟨before, after, n, attributes, hpath, hn, hentity⟩
    cases before with
    | nil => exact absurd hn not_visits_nil
    | cons first before =>
      cases hpath
      obtain ⟨c, hc, hbefore, hn⟩ := visits_cons_iff.1 hn
      exact ⟨c, hc, before, after, n, attributes, rfl, hbefore, hn, hentity⟩
  · rintro ⟨c, hc, before, after, n, attributes, rfl, hbefore, hn, hentity⟩
    exact ⟨key :: before, after, n, attributes, rfl, visits_cons_iff.2 ⟨c, hc, hbefore, hn⟩,
      hentity⟩

theorem takesOutInside_cons_iff (hkey : key ≠ attributesKey) : t.TakesOutInside (key :: path) ↔
    ∃ c, t.get? key = some (.tree c) ∧ c.TakesOutInside path := by
  constructor
  · rintro ⟨before, after, n, attributes, hpath, hbefore, hn, hentity⟩
    cases before with
    | nil =>
      cases hpath
      exact absurd rfl hkey
    | cons first before =>
      cases hpath
      obtain ⟨a, ha, hn⟩ := Option.bind_eq_some_iff.1 hn
      obtain ⟨c, rfl⟩ := Shape.exists_eq_tree_of_at? hn
      exact ⟨c, ha, before, after, n, attributes, rfl, fun h => hbefore (List.mem_cons_of_mem _ h),
        hn, hentity⟩
  · rintro ⟨c, hc, before, after, n, attributes, rfl, hbefore, hn, hentity⟩
    refine ⟨key :: before, after, n, attributes, rfl, ?_, by simpa [hc] using hn, hentity⟩
    simpa [hbefore] using hkey.symm

theorem takesOutInside_attributes_iff : t.TakesOutInside (attributesKey :: path) ↔
    ∃ attributes, t.IsEntity attributes := by
  constructor
  · rintro ⟨before, after, n, attributes, hpath, hbefore, hn, hentity⟩
    cases before with
    | nil =>
      cases hn
      exact ⟨attributes, hentity⟩
    | cons first before =>
      cases hpath
      exact absurd List.mem_cons_self hbefore
  · rintro ⟨attributes, hentity⟩
    exact ⟨[], path, t, attributes, rfl, List.not_mem_nil, Shape.at?_nil _, hentity⟩

theorem kindAt?_cons_congr {s : ShapeTree} (h : s.get? key = t.get? key) :
    s.kindAt? (key :: path) = t.kindAt? (key :: path) := by
  rw [kindAt?, kindAt?, Shape.at?_tree_cons, Shape.at?_tree_cons, h]

/-- The attributes of an entity are taken out. -/
theorem IsEntity.get?_residualAt (h : t.IsEntity attributes) :
    (t.residualAt (.inside t)).get? attributesKey = none := by
  have hplace : Place.inside t = .entity := by
    rw [Place.inside, isEntity_iff.1 h]
    rfl
  rw [ShapeTree.get?_residualAt, h.held, Option.bind_some, Shape.residualAt,
    if_pos (skips_inside_iff.2 rfl), if_pos hplace]

/-- Those of another element are left over. -/
theorem get?_residualAt_of_none (h : t.entityAttributes? = none) :
    (t.residualAt (.inside t)).get? attributesKey = t.get? attributesKey := by
  rw [get?_residualAt]
  rcases t.get? attributesKey with _ | _ | c
  · rfl
  · rfl
  · rw [Option.bind_some, Shape.residualAt, if_pos (skips_inside_iff.2 rfl),
      if_neg (inside_ne_entity_iff.2 h)]

/-- What is left over of a field that is visited, if this is known for the element in it. -/
theorem kindAt?_residualAt_cons_iff {place : Place} (hvisited : ¬ place.skips key)
    (hinside : ∀ c, t.get? key = some (.tree c) →
      ((c.residualAt (.inside c)).kindAt? path = some kind ↔
        c.kindAt? path = some kind ∧ ¬ c.TakesOutInside path)) :
    (t.residualAt place).kindAt? (key :: path) = some kind ↔
      t.kindAt? (key :: path) = some kind ∧
        ¬ ∃ c, t.get? key = some (.tree c) ∧ c.TakesOutInside path := by
  have hleft := get?_residualAt place t key
  cases ha : t.get? key with
  | none =>
    rw [ha, Option.bind_none] at hleft
    simp [kindAt?, hleft, ha]
  | some a =>
    rw [ha, Option.bind_some] at hleft
    cases a with
    | scalar x =>
      rw [Shape.residualAt] at hleft
      simp [kindAt?, hleft, ha]
    | tree c =>
      rw [Shape.residualAt, if_neg hvisited] at hleft
      simpa [kindAt?, hleft, ha] using hinside c ha

/-- What is left over of an element that is visited. -/
theorem kindAt?_residualAt_inside : (t.residualAt (.inside t)).kindAt? path = some kind ↔
    t.kindAt? path = some kind ∧ ¬ t.TakesOutInside path := by
  induction t using ShapeTree.induction generalizing path with
  | step t ih =>
    cases path with
    | nil => simp [kindAt?, not_takesOutInside_nil, Shape.tag?]
    | cons key path =>
      by_cases hkey : key = attributesKey
      · rw [hkey, takesOutInside_attributes_iff]
        by_cases hentity : ∃ attributes, t.IsEntity attributes
        · obtain ⟨attributes, hentity⟩ := hentity
          refine iff_of_false ?_ fun h => h.2 ⟨attributes, hentity⟩
          simp [kindAt?, hentity.get?_residualAt]
        · have hnone : t.entityAttributes? = none :=
            Option.eq_none_iff_forall_ne_some.2 fun a ha => hentity ⟨a, isEntity_iff.2 ha⟩
          rw [and_iff_left hentity, kindAt?_cons_congr (get?_residualAt_of_none hnone)]
      · have hvisited : ¬ (Place.inside t).skips key := fun h => hkey (skips_inside_iff.1 h)
        rw [takesOutInside_cons_iff hkey]
        exact kindAt?_residualAt_cons_iff hvisited fun c hc => ih key c hc

/-- **Nothing but the attributes of entities is taken out.** -/
theorem kindAt?_residual_extractEntities :
    (extractEntities t).residual.kindAt? path = some kind ↔
      t.kindAt? path = some kind ∧ ¬ t.TakesOut path := by
  change (t.residualAt .outermost).kindAt? path = some kind ↔ _
  cases path with
  | nil => simp [kindAt?, not_takesOut_nil, Shape.tag?]
  | cons key path =>
    rw [takesOut_cons_iff]
    exact kindAt?_residualAt_cons_iff (fun h => h.2 rfl) fun c _ => kindAt?_residualAt_inside

/-! ## What is found -/

/-- Discoveries are made in the elements that are visited, in a tree with fields at any place. -/
theorem mem_discoveries_iff_at? {place : Place} {d : String × ShapeTree} :
    d ∈ t.discoveries place ↔ ∃ path key rest c n attributes, path ++ [d.1] = key :: rest ∧
      ¬ place.skips key ∧ t.get? key = some (.tree c) ∧ attributesKey ∉ rest ∧
      (Shape.tree c).at? rest = some (.tree n) ∧ n.IsEntity attributes ∧
      d.2 = n.entityProperties attributes := by
  induction t using ShapeTree.induction generalizing place with
  | step t ih =>
    rw [mem_discoveries_iff]
    constructor
    · rintro ⟨key, c, hc, hvisited, ⟨attributes, hattributes, rfl⟩ | hd⟩
      · exact ⟨[], key, [], c, c, attributes, rfl, hvisited, hc, List.not_mem_nil, Shape.at?_nil _,
          isEntity_iff.2 hattributes, rfl⟩
      · obtain ⟨path, key', rest, c', n, attributes, hpath, hkey', hc', hrest, hn, hentity, hd⟩ :=
          (ih key c hc).1 hd
        rw [skips_inside_iff] at hkey'
        refine ⟨key :: path, key, key' :: rest, c, n, attributes, by rw [List.cons_append, hpath],
          hvisited, hc, ?_, by simpa [hc'] using hn, hentity, hd⟩
        simpa [hrest] using Ne.symm hkey'
    · rintro ⟨path, key, rest, c, n, attributes, hpath, hvisited, hc, hrest, hn, hentity, hd⟩
      refine ⟨key, c, hc, hvisited, ?_⟩
      cases path with
      | nil =>
        cases hpath
        cases hn
        exact .inl ⟨attributes, isEntity_iff.1 hentity, by rw [← hd]⟩
      | cons first path =>
        rw [List.cons_append, List.cons.injEq] at hpath
        obtain ⟨rfl, rfl⟩ := hpath
        obtain ⟨key', rest', hpath'⟩ : ∃ key' rest', path ++ [d.1] = key' :: rest' :=
          List.exists_cons_of_ne_nil (by simp)
        rw [hpath'] at hrest hn
        obtain ⟨a, ha, hn⟩ := Option.bind_eq_some_iff.1 hn
        obtain ⟨c', rfl⟩ := Shape.exists_eq_tree_of_at? hn
        rw [List.mem_cons, not_or] at hrest
        exact .inr ((ih first c hc).2 ⟨path, key', rest', c', n, attributes, hpath',
          fun h => hrest.1 (skips_inside_iff.1 h).symm, ha, hrest.2, hn, hentity, hd⟩)

/-- **What is discovered are the visited elements that stand for entities.** -/
theorem mem_discoveries_iff_visits {d : String × ShapeTree} : d ∈ t.discoveries .outermost ↔
    ∃ path n attributes, t.Visits (path ++ [d.1]) n ∧ n.IsEntity attributes ∧
      d.2 = n.entityProperties attributes := by
  rw [mem_discoveries_iff_at?]
  constructor
  · rintro ⟨path, key, rest, c, n, attributes, hpath, -, hc, hrest, hn, h⟩
    refine ⟨path, n, attributes, ?_, h⟩
    rw [hpath]
    exact visits_cons_iff.2 ⟨c, hc, hrest, hn⟩
  · rintro ⟨path, n, attributes, hn, h⟩
    obtain ⟨key, rest, hpath⟩ : ∃ key rest, path ++ [d.1] = key :: rest :=
      List.exists_cons_of_ne_nil (by simp)
    rw [hpath] at hn
    obtain ⟨c, hc, hrest, hn⟩ := visits_cons_iff.1 hn
    exact ⟨path, key, rest, c, n, attributes, hpath, fun h => h.2 rfl, hc, hrest, hn, h⟩

/-- The properties of an entity are the join of the attributes and of references to children. -/
theorem entityProperties_le_iff : n.entityProperties attributes ≤ u ↔ attributes ≤ u ∧
    ∀ child, child ≠ attributesKey → n.contains child →
      singleton child (.scalar (.reference child)) ≤ u := by
  have hfold : n.entityProperties attributes =
      ((n.keys.filter (· ≠ attributesKey)).map fun child => (child, Tag.reference child)).foldl
        (fun t e => t.observe e.1 (.scalar e.2)) attributes := by
    rw [List.foldl_map]
    rfl
  rw [hfold, foldl_observe_le_iff]
  refine and_congr_right fun _ => ?_
  simp only [List.forall_mem_map, List.mem_filter, decide_eq_true_eq]
  constructor
  · exact fun h child hkey hchild => h child ⟨Dict.mem_keys_iff.2 hchild, hkey⟩
  · exact fun h child ⟨hchild, hkey⟩ => h child hkey (Dict.mem_keys_iff.1 hchild)

/-- What an entity is joined from: the attributes of the elements that stand for it, and references
to their children. -/
def FoundUnder (t : ShapeTree) (name : String) (u : ShapeTree) : Prop :=
  ∃ path n attributes, t.Visits (path ++ [name]) n ∧ n.IsEntity attributes ∧
    (u = attributes ∨ ∃ child, child ≠ attributesKey ∧ n.contains child ∧
      u = singleton child (.scalar (.reference child)))

end ShapeTree

/-! ## Extractions -/

/-- What it is to split a tree into its entities and the rest. -/
structure Extraction.Splits (x : Extraction) (t : ShapeTree) : Prop where
  residual : ∀ path kind, x.residual.kindAt? path = some kind ↔
    t.kindAt? path = some kind ∧ ¬ t.TakesOut path
  contains : ∀ name, x.entities.contains name ↔
    ∃ path n attributes, t.Visits (path ++ [name]) n ∧ n.IsEntity attributes
  named : ∀ name e, x.entities.get? name = some e → e.name = name
  properties : ∀ name e, x.entities.get? name = some e →
    IsLUB {u | t.FoundUnder name u} e.properties

variable {t : ShapeTree} {x y : Extraction}

/-- **There is only one way to split a tree.** -/
theorem Extraction.Splits.unique (hx : x.Splits t) (hy : y.Splits t) : x = y := by
  have hresidual : x.residual = y.residual := ShapeTree.ext_kindAt? fun path =>
    Option.ext fun kind => (hx.residual path kind).trans (hy.residual path kind).symm
  have hentities : x.entities = y.entities := by
    ext name : 1
    have hcontains := (hx.contains name).trans (hy.contains name).symm
    cases hxe : x.entities.get? name with
    | none =>
      cases hye : y.entities.get? name with
      | none => rfl
      | some e => simp [Dict.contains, hxe, hye] at hcontains
    | some d =>
      cases hye : y.entities.get? name with
      | none => simp [Dict.contains, hxe, hye] at hcontains
      | some e =>
        have hname := (hx.named name d hxe).trans (hy.named name e hye).symm
        have hproperties := (hx.properties name d hxe).unique (hy.properties name e hye)
        exact congrArg some (congrArg₂ Entity.mk hname hproperties)
  exact congrArg₂ Extraction.mk hresidual hentities

/-- The entity with a name is the join of what is discovered under it. -/
theorem get?_entities_extractEntities (t : ShapeTree) (name : String) :
    (extractEntities t).entities.get? name = reduce? (Entity.join .widen)
      (((t.discoveries .outermost).filter (·.1 = name)).map .ofDiscovery) := by
  rw [ShapeTree.entities_extractEntities, Entity.get?_recordAll, List.filter_map]
  rfl

theorem contains_entities_extractEntities {name : String} :
    (extractEntities t).entities.contains name ↔
      ∃ path n attributes, t.Visits (path ++ [name]) n ∧ n.IsEntity attributes := by
  have hfound : (extractEntities t).entities.contains name ↔
      ∃ d ∈ t.discoveries .outermost, d.1 = name := by
    rw [Dict.contains, get?_entities_extractEntities, Option.isSome_iff_ne_none, ne_eq,
      reduce?_eq_none_iff, List.map_eq_nil_iff, List.filter_eq_nil_iff]
    simp
  rw [hfound]
  constructor
  · rintro ⟨d, hd, rfl⟩
    obtain ⟨path, n, attributes, hn, hentity, -⟩ := ShapeTree.mem_discoveries_iff_visits.1 hd
    exact ⟨path, n, attributes, hn, hentity⟩
  · rintro ⟨path, n, attributes, hn, hentity⟩
    exact ⟨(name, n.entityProperties attributes),
      ShapeTree.mem_discoveries_iff_visits.2 ⟨path, n, attributes, hn, hentity, rfl⟩, rfl⟩

/-- The properties of an entity are the least tree above all that is found under its name. -/
theorem properties_le_iff {name : String} {e : Entity}
    (he : (extractEntities t).entities.get? name = some e) {u : ShapeTree} :
    e.properties ≤ u ↔ ∀ v, t.FoundUnder name v → v ≤ u := by
  have hproperties : reduce? (· ⊔ ·)
      (((t.discoveries .outermost).filter (·.1 = name)).map Prod.snd) = some e.properties := by
    have hjoin (a b : Entity) :
        (a.join .widen b).properties = a.properties ⊔ b.properties := rfl
    have hmap := reduce?_map Entity.properties hjoin
      (((t.discoveries .outermost).filter (·.1 = name)).map .ofDiscovery)
    rw [← get?_entities_extractEntities, he, List.map_map] at hmap
    exact hmap
  rw [reduce?_sup_le_iff hproperties]
  constructor
  · rintro h v ⟨path, n, attributes, hn, hentity, hv⟩
    have hd : n.entityProperties attributes ≤ u := by
      refine h _ (List.mem_map.2 ⟨(name, n.entityProperties attributes), ?_, rfl⟩)
      exact List.mem_filter.2 ⟨ShapeTree.mem_discoveries_iff_visits.2
        ⟨path, n, attributes, hn, hentity, rfl⟩, by simp⟩
    obtain ⟨hattributes, hchildren⟩ := ShapeTree.entityProperties_le_iff.1 hd
    obtain rfl | ⟨child, hkey, hchild, rfl⟩ := hv
    · exact hattributes
    · exact hchildren child hkey hchild
  · intro h p hp
    obtain ⟨d, hmem, rfl⟩ := List.mem_map.1 hp
    obtain ⟨hfound, hname⟩ := List.mem_filter.1 hmem
    obtain ⟨path, n, attributes, hn, hentity, hd⟩ := ShapeTree.mem_discoveries_iff_visits.1 hfound
    rw [of_decide_eq_true hname] at hn
    rw [hd, ShapeTree.entityProperties_le_iff]
    exact ⟨h _ ⟨path, n, attributes, hn, hentity, .inl rfl⟩, fun child hkey hchild =>
      h _ ⟨path, n, attributes, hn, hentity, .inr ⟨child, hkey, hchild, rfl⟩⟩⟩

/-- **Extracting entities splits the tree.** -/
theorem splits_extractEntities (t : ShapeTree) : (extractEntities t).Splits t where
  residual _ _ := ShapeTree.kindAt?_residual_extractEntities
  contains _ := contains_entities_extractEntities
  named name _ he :=
    have hjoin (a b : Entity) (ha : a.name = name) (_ : b.name = name) :
        (a.join .widen b).name = name := ha
    ShapeTree.of_get?_extractEntities (fun _ _ hname => hname) hjoin he
  properties _ _ he := isLUB_iff_le_iff.2 fun _ => properties_le_iff he

/-- **The extraction of a tree is the one that splits it**, and there is no other. -/
theorem extractEntities_eq_iff (t : ShapeTree) (x : Extraction) :
    extractEntities t = x ↔ x.Splits t :=
  ⟨fun h => h ▸ splits_extractEntities t, (splits_extractEntities t).unique⟩

end TrafficSchema
