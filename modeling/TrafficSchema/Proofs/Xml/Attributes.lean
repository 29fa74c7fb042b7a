import Mathlib.Data.List.Induction
import TrafficSchema.Proofs.Encoding.Utf8
import TrafficSchema.Proofs.Xml.Tree

/-!
# Attributes and children

A path of tags leads to the elements of a document that stand in elements with these tags
(`Tree.elementsAt`). In the shape of the document it leads to their node (`Tree.at?_shape`), which
is that of a single element with all their attributes and all their children (`Tree.nodes`).
Conversely a place in the shape is one of elements, unless it is in attributes
(`Tree.elementsAt_ne_nil_of_at?`).

The node has the attributes under a key of its own. Nothing keeps a child from being tagged with
this key, and then its shape is widened into the attributes (`not_attributesApart_nested`). So the
attributes stand apart just if such children have nothing in them (`Tree.KeepsApart`,
`shapeOf_attributesApart`).
-/

namespace TrafficSchema

/-! ## Trees of scalars -/

namespace ShapeTree

/-- All fields are scalars. -/
def Flat (t : ShapeTree) : Prop := ∀ key a, t.get? key = some a → ∃ x, a = .scalar x

/-- The attributes of an element are what its node has under their key: a tree of scalars, the keys
of which are the given names, or nothing at all. -/
def AttributesApart (n : ShapeTree) (names : List String) : Prop :=
  ∀ a, n.get? attributesKey = some a →
    ∃ c, a = .tree c ∧ c.Flat ∧ ∀ name, c.contains name ↔ name ∈ names

theorem flat_empty : Flat ∅ := nofun

theorem flat_singleton (key : String) (x : Tag) : (singleton key (.scalar x)).Flat := by
  intro j a ha
  rw [singleton, get?_insert, get?_empty, Option.ite_none_right_eq_some] at ha
  obtain ⟨-, ha⟩ := ha
  cases ha
  exact ⟨x, rfl⟩

theorem Flat.sup {s t : ShapeTree} (hs : s.Flat) (ht : t.Flat) : (s ⊔ t).Flat := by
  intro key a ha
  cases a with
  | scalar x => exact ⟨x, rfl⟩
  | tree c =>
    rw [get?_sup] at ha
    obtain h | h | ⟨u, v, h, -, -⟩ := Shape.unify?_eq_tree ha
    · exact hs key _ h
    · exact ht key _ h
    · exact absurd (hs key _ h) (by simp)

/-- A structure takes the place of a scalar. -/
theorem Flat.get?_sup_eq_tree {s t c : ShapeTree} (hs : s.Flat) {key : String}
    (hc : t.get? key = some (.tree c)) : (s ⊔ t).get? key = some (.tree c) := by
  rw [get?_sup, hc]
  cases ha : s.get? key with
  | none => rfl
  | some a =>
    obtain ⟨x, rfl⟩ := hs key a ha
    rfl

end ShapeTree

namespace Xml

namespace Tree

/-! ## Elements in a row -/

/-- The attributes of an element, in order. -/
def attributes : Tree → List (String × String)
  | element _ attributes _ => attributes

/-- The elements directly in an element. -/
def children : Tree → List Tree
  | element _ _ children => children

/-- Everything that stands directly in some elements. -/
def childrenOf (trees : List Tree) : List Tree := trees.flatMap children

/-- The attributes of some elements. -/
def attributesOf (trees : List Tree) : List (String × String) := trees.flatMap attributes

/-- The elements with a tag. -/
def tagged (tag : String) (trees : List Tree) : List Tree := trees.filter (·.tag = tag)

/-- The shape of elements of one tag, as if they were one element. -/
def nodes (trees : List Tree) : ShapeTree :=
  attributeShape (attributesOf trees) ⊔ childShape (childrenOf trees)

variable {trees : List Tree} {key name : String}

theorem tags_append (l m : List (String × String)) : tags (l ++ m) = tags l ⊔ tags m := by
  induction l with
  | nil => exact (ShapeTree.empty_sup _).symm
  | cons a l ih => rw [List.cons_append, tags, tags, ih, sup_assoc]

theorem attributeShape_append (l m : List (String × String)) :
    attributeShape (l ++ m) = attributeShape l ⊔ attributeShape m := by
  unfold attributeShape
  rcases l with _ | ⟨a, l⟩
  · exact (ShapeTree.empty_sup _).symm
  rcases m with _ | ⟨b, m⟩
  · rw [List.append_nil]
    exact (ShapeTree.sup_empty _).symm
  rw [if_neg (by simp), if_neg (by simp), if_neg (by simp), tags_append]
  exact ShapeTree.singleton_sup attributesKey (.tree _) (.tree _)

/-- Elements are widened into one. -/
theorem nodes_cons (tree : Tree) (trees : List Tree) :
    nodes (tree :: trees) = tree.node ⊔ nodes trees := by
  obtain ⟨tag, attributes, children⟩ := tree
  have hattributes : attributesOf (element tag attributes children :: trees) =
      attributes ++ attributesOf trees := rfl
  have hchildren : childrenOf (element tag attributes children :: trees) =
      children ++ childrenOf trees := rfl
  rw [nodes, hattributes, hchildren, attributeShape_append, childShape_append, node, nodes]
  exact sup_sup_sup_comm _ _ _ _

theorem nodes_singleton (tree : Tree) : nodes [tree] = tree.node := by
  have hnil : nodes [] = ∅ := ShapeTree.sup_empty ∅
  rw [nodes_cons, hnil, ShapeTree.sup_empty]

/-- The fields for children are widened from the children with their tag. -/
theorem get?_childShape (trees : List Tree) (key : String) : (childShape trees).get? key =
    if tagged key trees = [] then none else some (.tree (nodes (tagged key trees))) := by
  induction trees with
  | nil => rfl
  | cons tree trees ih =>
    rw [childShape, ShapeTree.get?_sup, ShapeTree.singleton, ShapeTree.get?_insert,
      ShapeTree.get?_empty, ih]
    by_cases htag : tree.tag = key
    · have hcons : tagged key (tree :: trees) = tree :: tagged key trees := by simp [tagged, htag]
      rw [if_pos htag.symm, hcons, if_neg (List.cons_ne_nil _ _)]
      by_cases hnil : tagged key trees = []
      · rw [if_pos hnil, hnil, Shape.unify?_none_right, nodes_singleton]
      · rw [if_neg hnil, nodes_cons]
        rfl
    · have hcons : tagged key (tree :: trees) = tagged key trees := by simp [tagged, htag]
      rw [if_neg (Ne.symm htag), hcons, Shape.unify?_none_left]

theorem get?_attributeShape (attributes : List (String × String)) (key : String) :
    (attributeShape attributes).get? key =
      if key = attributesKey ∧ attributes ≠ [] then some (.tree (tags attributes)) else none := by
  unfold attributeShape
  by_cases hnil : attributes = []
  · simp [hnil]
  · rw [if_neg hnil, ShapeTree.singleton, ShapeTree.get?_insert, ShapeTree.get?_empty]
    simp [hnil]

/-- The fields of a node are structures. -/
theorem get?_nodes_eq_tree {a : Shape} (h : (nodes trees).get? key = some a) :
    ∃ c, a = .tree c := by
  rw [nodes, ShapeTree.get?_sup, get?_attributeShape, get?_childShape] at h
  split at h <;> split at h <;> cases h <;> exact ⟨_, rfl⟩

/-! ## The names of attributes -/

theorem flat_tags (attributes : List (String × String)) : (tags attributes).Flat := by
  induction attributes with
  | nil => exact ShapeTree.flat_empty
  | cons a attributes ih => exact (ShapeTree.flat_singleton a.1 _).sup ih

theorem contains_tags (attributes : List (String × String)) (name : String) :
    (tags attributes).contains name ↔ name ∈ attributes.map (·.1) := by
  induction attributes with
  | nil => exact ⟨nofun, nofun⟩
  | cons a attributes ih =>
    rw [tags, ShapeTree.contains_sup, ih, List.map_cons, List.mem_cons]
    refine or_congr_left ?_
    change ((ShapeTree.singleton a.1 _).get? name).isSome ↔ _
    simp [ShapeTree.singleton]

theorem tags_ne_empty {attributes : List (String × String)} (h : attributes ≠ []) :
    tags attributes ≠ ∅ := by
  obtain ⟨a, rest, rfl⟩ := List.exists_cons_of_ne_nil h
  intro hempty
  have hname : (tags (a :: rest)).contains a.1 := (contains_tags _ _).2 (by simp)
  rw [hempty] at hname
  cases hname

/-! ## Elements at a path -/

/-- The elements that a path of tags leads to, from the given ones on. -/
def within : List Tree → List String → List Tree
  | trees, [] => trees
  | trees, tag :: path => within (tagged tag (childrenOf trees)) path

/-- The elements of a document that a path of tags leads to, the tag of the root first. -/
def elementsAt (root : Tree) : List String → List Tree
  | [] => []
  | tag :: path => within (tagged tag [root]) path

/-- The names of the attributes of the elements that a path of tags leads to. -/
def attributeNames (root : Tree) (path : List String) : List String :=
  (attributesOf (root.elementsAt path)).map (·.1)

variable {root : Tree} {path : List String}

theorem within_concat (trees : List Tree) (path : List String) (key : String) :
    within trees (path ++ [key]) = tagged key (childrenOf (within trees path)) := by
  induction path generalizing trees with
  | nil => rfl
  | cons tag path ih => exact ih (tagged tag (childrenOf trees))

theorem elementsAt_concat (hpath : path ≠ []) (key : String) :
    root.elementsAt (path ++ [key]) = tagged key (childrenOf (root.elementsAt path)) := by
  cases path with
  | nil => exact absurd rfl hpath
  | cons tag path => exact within_concat (tagged tag [root]) path key

theorem exists_concat_of_elementsAt (h : root.elementsAt path ≠ []) :
    ∃ before tag, path = before ++ [tag] := by
  have hpath : path ≠ [] := by
    rintro rfl
    exact h rfl
  exact ⟨path.dropLast, path.getLast hpath, (List.dropLast_concat_getLast hpath).symm⟩

/-- Elements stand in elements. -/
theorem elementsAt_ne_nil_of_concat (hpath : path ≠ []) (h : root.elementsAt (path ++ [key]) ≠ []) :
    root.elementsAt path ≠ [] := by
  intro hnil
  rw [elementsAt_concat hpath, hnil] at h
  exact h rfl

/-- What the node at a path has from the element around it: if it is under the key of attributes,
these attributes. -/
def inherited (key : String) (around : List Tree) : ShapeTree :=
  if key = attributesKey then tags (attributesOf around) else ∅

theorem flat_inherited (key : String) (around : List Tree) : (inherited key around).Flat := by
  unfold inherited
  split
  · exact flat_tags (attributesOf around)
  · exact ShapeTree.flat_empty

/-- What elements have under a tag that some of their children have. -/
theorem get?_nodes_of_child (h : tagged key (childrenOf trees) ≠ []) : (nodes trees).get? key =
    some (.tree (inherited key trees ⊔ nodes (tagged key (childrenOf trees)))) := by
  rw [nodes, ShapeTree.get?_sup, get?_attributeShape, get?_childShape, if_neg h, inherited]
  by_cases hkey : key = attributesKey
  · by_cases hnil : attributesOf trees = []
    · rw [if_neg fun h => h.2 hnil, if_pos hkey, hnil, Shape.unify?_none_left, tags,
        ShapeTree.empty_sup]
    · rw [if_pos ⟨hkey, hnil⟩, if_pos hkey]
      rfl
  · rw [if_neg fun h => hkey h.1, if_neg hkey, Shape.unify?_none_left, ShapeTree.empty_sup]

/-- **A path of tags leads to the node of the elements there**, with the attributes of the element
around them where these are held under their tag. -/
theorem at?_shape (h : root.elementsAt (path ++ [key]) ≠ []) :
    (Shape.tree root.shape).at? (path ++ [key]) = some (.tree
      (inherited key (root.elementsAt path) ⊔ nodes (root.elementsAt (path ++ [key])))) := by
  induction path using List.reverseRecOn generalizing key with
  | nil =>
    have htag : root.tag = key := by
      by_contra htag
      exact h (by simp [elementsAt, tagged, within, htag])
    obtain rfl := htag
    have hroot : root.elementsAt ([] ++ [root.tag]) = [root] := by
      simp [elementsAt, tagged, within]
    have houter : inherited root.tag (root.elementsAt []) = ∅ := ite_self ∅
    rw [hroot, houter, nodes_singleton, ShapeTree.empty_sup]
    simp [shape, ShapeTree.singleton]
  | append_singleton path tag ih =>
    have hpath : path ++ [tag] ≠ [] := by simp
    have hchild : tagged key (childrenOf (root.elementsAt (path ++ [tag]))) ≠ [] := by
      rwa [elementsAt_concat hpath] at h
    refine Shape.at?_concat_eq_some_iff.2 ⟨_, ih (elementsAt_ne_nil_of_concat hpath h), ?_⟩
    rw [elementsAt_concat hpath]
    exact (flat_inherited tag _).get?_sup_eq_tree (get?_nodes_of_child hchild)

/-- Nothing comes from around if the path does not go through attributes. -/
theorem at?_eq_nodes (hkeys : attributesKey ∉ path.tail) (h : root.elementsAt path ≠ []) :
    (Shape.tree root.shape).at? path = some (.tree (nodes (root.elementsAt path))) := by
  obtain ⟨before, tag, rfl⟩ := exists_concat_of_elementsAt h
  have hinherited : inherited tag (root.elementsAt before) = ∅ := by
    cases before with
    | nil => exact ite_self ∅
    | cons outer before =>
      have htag : tag ≠ attributesKey := by
        rintro rfl
        exact hkeys (by simp)
      exact if_neg htag
  rw [at?_shape h, hinherited, ShapeTree.empty_sup]

theorem exists_node_of_elementsAt (h : root.elementsAt path ≠ []) :
    ∃ n, (Shape.tree root.shape).at? path = some (.tree n) := by
  obtain ⟨before, tag, rfl⟩ := exists_concat_of_elementsAt h
  exact ⟨_, at?_shape h⟩

/-- What elements have under a key comes from children, unless it is their attributes. -/
theorem tagged_ne_nil_of_get?_nodes {a : Shape} (hbare : key = attributesKey → a = .tree ∅)
    (h : (nodes trees).get? key = some a) : tagged key (childrenOf trees) ≠ [] := by
  intro hnil
  rw [nodes, ShapeTree.get?_sup, get?_attributeShape, get?_childShape, if_pos hnil,
    Shape.unify?_none_right, Option.ite_none_right_eq_some] at h
  obtain ⟨⟨hkey, hattributes⟩, h⟩ := h
  rw [hbare hkey, Option.some.injEq, Shape.tree.injEq] at h
  exact tags_ne_empty hattributes h

/-- What stands at a key in the node of elements comes from elements in these, unless it is
attributes. -/
theorem elementsAt_concat_ne_nil {n : ShapeTree} {a : Shape} (hkeys : attributesKey ∉ path.tail)
    (h : root.elementsAt path ≠ []) (hn : (Shape.tree root.shape).at? path = some (.tree n))
    (ha : n.get? key = some a) (hbare : key = attributesKey → a = .tree ∅) :
    root.elementsAt (path ++ [key]) ≠ [] := by
  obtain ⟨before, tag, rfl⟩ := exists_concat_of_elementsAt h
  cases hn.symm.trans (at?_eq_nodes hkeys h)
  rw [elementsAt_concat (List.concat_ne_nil tag before)]
  exact tagged_ne_nil_of_get?_nodes hbare ha

theorem exists_tree_of_get? {n : ShapeTree} {a : Shape} (hkeys : attributesKey ∉ path.tail)
    (h : root.elementsAt path ≠ []) (hn : (Shape.tree root.shape).at? path = some (.tree n))
    (ha : n.get? key = some a) : ∃ c, a = .tree c := by
  cases hn.symm.trans (at?_eq_nodes hkeys h)
  exact get?_nodes_eq_tree ha

/-- **What a path leads to stands for elements**, unless it goes through the attributes of an
element. -/
theorem elementsAt_ne_nil_of_at? {a : Shape} (hpath : path ≠ []) (hkeys : attributesKey ∉ path.tail)
    (h : (Shape.tree root.shape).at? path = some a) : root.elementsAt path ≠ [] := by
  induction path using List.reverseRecOn generalizing a with
  | nil => exact absurd rfl hpath
  | append_singleton before key ih =>
    obtain ⟨c, hc, ha⟩ := Shape.at?_concat_eq_some_iff.1 h
    by_cases hbefore : before = []
    · subst hbefore
      cases hc
      have htag : key = root.tag := by
        by_contra hne
        simp [shape, ShapeTree.singleton, hne] at ha
      simp [elementsAt, tagged, within, htag]
    · have htail : (before ++ [key]).tail = before.tail ++ [key] :=
        List.tail_append_of_ne_nil hbefore
      rw [htail, List.mem_append, not_or, List.mem_singleton] at hkeys
      exact elementsAt_concat_ne_nil hkeys.1 (ih hbefore hkeys.1 hc) hc ha fun hkey =>
        absurd hkey.symm hkeys.2

/-! ## When attributes stand apart -/

/-- There is nothing in an element but text: it has neither attributes nor children. -/
def Bare (tree : Tree) : Prop := tree.attributes = [] ∧ tree.children = []

/-- The attributes of the elements at a path are not mixed up with anything else. Children that are
tagged with the key of attributes are bare. And where the elements are tagged so themselves, their
node is among the attributes of the element around them, and one of these that is named like the key
is not taken for the attributes of the node. -/
structure KeepsApart (root : Tree) (path : List String) : Prop where
  bare : ∀ e ∈ root.elementsAt (path ++ [attributesKey]), e.Bare
  around : ∀ before, path = before ++ [attributesKey] →
    attributesKey ∈ root.attributeNames before →
      root.attributeNames path ≠ [] ∨ root.elementsAt (path ++ [attributesKey]) ≠ []

theorem nodes_eq_empty (h : ∀ e ∈ trees, e.Bare) : nodes trees = ∅ := by
  have hattributes : attributesOf trees = [] := List.flatMap_eq_nil_iff.2 fun e he => (h e he).1
  have hchildren : childrenOf trees = [] := List.flatMap_eq_nil_iff.2 fun e he => (h e he).2
  rw [nodes, hattributes, hchildren]
  exact ShapeTree.sup_empty ∅

/-- Elements are bare just if there is no structure in their node. -/
theorem flat_nodes_iff : (nodes trees).Flat ↔ ∀ e ∈ trees, e.Bare := by
  refine ⟨fun hflat => ?_, fun h => nodes_eq_empty h ▸ ShapeTree.flat_empty⟩
  have hnone (key : String) : (nodes trees).get? key = none := by
    refine Option.eq_none_iff_forall_ne_some.2 fun a ha => ?_
    obtain ⟨c, rfl⟩ := get?_nodes_eq_tree ha
    exact absurd (hflat key _ ha) (by simp)
  intro e he
  constructor
  · have hattributes : attributesOf trees = [] := by
      by_contra hne
      have hkey := hnone attributesKey
      rw [nodes, ShapeTree.get?_sup, Shape.unify?_eq_none_iff, get?_attributeShape,
        if_pos ⟨rfl, hne⟩] at hkey
      cases hkey.1
    exact List.flatMap_eq_nil_iff.1 hattributes e he
  · refine List.eq_nil_iff_forall_not_mem.2 fun child hchild => ?_
    have hmem : child ∈ tagged child.tag (childrenOf trees) :=
      List.mem_filter.2 ⟨List.mem_flatMap.2 ⟨e, he, hchild⟩, by simp⟩
    have hsome := get?_nodes_of_child (List.ne_nil_of_mem hmem)
    rw [hnone] at hsome
    cases hsome

/-- What elements have under the key of attributes if no child is tagged with it. -/
theorem get?_nodes_attributes (h : tagged attributesKey (childrenOf trees) = []) :
    (nodes trees).get? attributesKey =
      if attributesOf trees = [] then none else some (.tree (tags (attributesOf trees))) := by
  rw [nodes, ShapeTree.get?_sup, get?_attributeShape, get?_childShape, if_pos h,
    Shape.unify?_none_right]
  by_cases hnil : attributesOf trees = [] <;> simp [hnil]

/-- Elements in a row, with a node that is widened into some attributes. -/
theorem attributesApart_iff {around : ShapeTree} (haround : around.Flat) :
    (around ⊔ nodes trees).AttributesApart ((attributesOf trees).map (·.1)) ↔
      (∀ e ∈ tagged attributesKey (childrenOf trees), e.Bare) ∧
        (around.contains attributesKey →
          attributesOf trees ≠ [] ∨ tagged attributesKey (childrenOf trees) ≠ []) := by
  by_cases hchildren : tagged attributesKey (childrenOf trees) = []
  · have hget := get?_nodes_attributes hchildren
    rw [hchildren, and_iff_right (by simp)]
    by_cases hattributes : attributesOf trees = []
    · -- there is nothing under the key but a scalar from around
      rw [if_pos hattributes] at hget
      have hsup : (around ⊔ nodes trees).get? attributesKey = around.get? attributesKey := by
        rw [ShapeTree.get?_sup, hget, Shape.unify?_none_right]
      rw [ShapeTree.AttributesApart, hsup, ShapeTree.contains_iff]
      cases ha : around.get? attributesKey with
      | none => simp
      | some a =>
        obtain ⟨x, rfl⟩ := haround _ a ha
        simp [hattributes]
    · rw [if_neg hattributes] at hget
      refine iff_of_true (fun a ha => ?_) fun _ => .inl hattributes
      rw [haround.get?_sup_eq_tree hget] at ha
      cases ha
      exact ⟨_, rfl, flat_tags _, contains_tags _⟩
  · have hget := haround.get?_sup_eq_tree (get?_nodes_of_child hchildren)
    rw [inherited, if_pos rfl] at hget
    constructor
    · intro h
      obtain ⟨c, hc, hflat, -⟩ := h _ hget
      cases hc
      refine ⟨flat_nodes_iff.1 fun key a ha => ?_, fun _ => .inr hchildren⟩
      obtain ⟨d, rfl⟩ := get?_nodes_eq_tree ha
      exact hflat key _ ((flat_tags _).get?_sup_eq_tree ha)
    · rintro ⟨hbare, -⟩ a ha
      rw [hget, nodes_eq_empty hbare, ShapeTree.sup_empty] at ha
      cases ha
      exact ⟨_, rfl, flat_tags _, contains_tags _⟩

theorem contains_inherited {around : List Tree} : (inherited key around).contains name ↔
    key = attributesKey ∧ name ∈ (attributesOf around).map (·.1) := by
  unfold inherited
  split
  · rename_i hkey
    rw [contains_tags, and_iff_right hkey]
  · rename_i hkey
    exact iff_of_false nofun fun h => hkey h.1

/-- The attributes stand apart in the node at a path just if the document keeps them apart. -/
theorem attributesApart_iff_keepsApart {n : ShapeTree} (h : root.elementsAt path ≠ [])
    (hn : (Shape.tree root.shape).at? path = some (.tree n)) :
    n.AttributesApart (root.attributeNames path) ↔ root.KeepsApart path := by
  obtain ⟨before, tag, rfl⟩ := exists_concat_of_elementsAt h
  have hnode := hn.symm.trans (at?_shape h)
  cases hnode
  have hinner : root.elementsAt (before ++ [tag] ++ [attributesKey]) =
      tagged attributesKey (childrenOf (root.elementsAt (before ++ [tag]))) :=
    elementsAt_concat (List.concat_ne_nil tag before) attributesKey
  have hnames : root.attributeNames (before ++ [tag]) ≠ [] ↔
      attributesOf (root.elementsAt (before ++ [tag])) ≠ [] := by simp [attributeNames]
  refine (attributesApart_iff (flat_inherited tag _)).trans ⟨?_, ?_⟩
  · rintro ⟨hbare, haround⟩
    refine ⟨hinner ▸ hbare, fun outer houter hname => ?_⟩
    obtain ⟨rfl, htag⟩ := List.append_inj' houter rfl
    cases htag
    rw [hnames, hinner]
    exact haround (contains_inherited.2 ⟨rfl, hname⟩)
  · intro h
    refine ⟨hinner ▸ h.bare, fun hcontains => ?_⟩
    obtain ⟨rfl, hname⟩ := contains_inherited.1 hcontains
    have haround := h.around before rfl hname
    rwa [hnames, hinner] at haround

/-- A document in which no element is tagged with the key of attributes keeps them apart. -/
theorem keepsApart_of_untagged (h : ∀ path, root.elementsAt (path ++ [attributesKey]) = [])
    (hpath : root.elementsAt path ≠ []) : root.KeepsApart path where
  bare e he := by
    rw [h path] at he
    cases he
  around before hbefore := absurd (h before) (hbefore ▸ hpath)

end Tree

/-! ## Documents -/

/-- **When attributes and children do not mix.** The nodes of a document that is read stand for its
elements: each path of tags leads to the node of the elements there, and what a path leads to stands
for elements unless it goes through attributes. The attributes of a node stand apart, being scalars
under the names of the attributes of these elements, just if the document keeps them apart there;
and it does so everywhere if no element is tagged with the key of attributes. -/
theorem shapeOf_attributesApart {limit : Nat} {body : ByteArray} {t : ShapeTree}
    (h : shapeOf limit body = .ok t) : ∃ text root, String.fromUTF8? body = some text ∧
      Spells ((Event.read text).filter (· ≠ .skipped)) root ∧
      (∀ path, root.elementsAt path ≠ [] → ∃ n, (Shape.tree t).at? path = some (.tree n) ∧
        (n.AttributesApart (root.attributeNames path) ↔ root.KeepsApart path)) ∧
      (∀ path a, path ≠ [] → attributesKey ∉ path.tail → (Shape.tree t).at? path = some a →
        root.elementsAt path ≠ []) ∧
      ((∀ path, root.elementsAt (path ++ [attributesKey]) = []) →
        ∀ path, root.elementsAt path ≠ [] → root.KeepsApart path) := by
  obtain ⟨text, root, htext, hspells, -, rfl⟩ := shapeOf_eq_ok_iff.1 h
  refine ⟨text, root, htext, hspells, fun path helements => ?_,
    fun path a hpath hkeys ha => Tree.elementsAt_ne_nil_of_at? hpath hkeys ha,
    fun huntagged path => Tree.keepsApart_of_untagged huntagged⟩
  obtain ⟨n, hn⟩ := Tree.exists_node_of_elementsAt helements
  exact ⟨n, hn, Tree.attributesApart_iff_keepsApart helements hn⟩

/-- The items of a shop, with different attributes. -/
def itemList : String := "<shop city=\"Ulm\"><item id=\"1\"/><item price=\"2.5\"/></shop>"

def itemListRoot : Tree :=
  .element "shop" [("city", "Ulm")]
    [.element "item" [("id", "1")] [], .element "item" [("price", "2.5")] []]

theorem spells_itemList : Spells ((Event.read itemList).filter (· ≠ .skipped)) itemListRoot := by
  have hread : (Event.read itemList).filter (· ≠ .skipped) =
      [.opened "shop" [.pair "city" "Ulm"], .emptied "item" [.pair "id" "1"],
        .emptied "item" [.pair "price" "2.5"], .closed] := by decide +kernel
  have hitems : Content [.emptied "item" [.pair "id" "1"], .emptied "item" [.pair "price" "2.5"]]
      [.element "item" [("id", "1")] [], .element "item" [("price", "2.5")] []] :=
    @Content.emptied "item" [("id", "1")] _ _ (@Content.emptied "item" [("price", "2.5")] _ _ .nil)
  rw [hread]
  exact @Spells.nested "shop" [("city", "Ulm")] _ _ hitems

theorem shapeOf_attributesApart_itemList :
    shapeOf 16 itemList.toUTF8 = .ok itemListRoot.shape ∧
      ∃ root n, Spells ((Event.read itemList).filter (· ≠ .skipped)) root ∧
        (Shape.tree itemListRoot.shape).at? ["shop", "item"] = some (.tree n) ∧
        n.get? attributesKey =
          some (.tree (.ofList [("id", .scalar .int), ("price", .scalar .float)])) ∧
        (n.AttributesApart (root.attributeNames ["shop", "item"]) ↔
          root.KeepsApart ["shop", "item"]) := by
  have hshape : shapeOf 16 itemList.toUTF8 = .ok itemListRoot.shape :=
    shapeOf_eq_ok_iff.2 ⟨itemList, itemListRoot, Utf8.fromUTF8?_toUTF8 itemList, spells_itemList,
      by decide +kernel, rfl⟩
  obtain ⟨text, root, htext, hspells, hnodes, helements, -⟩ := shapeOf_attributesApart hshape
  rw [Utf8.fromUTF8?_toUTF8] at htext
  cases htext
  have hitem : (Shape.tree itemListRoot.shape).at? ["shop", "item"] =
      some (.tree (.ofList [(attributesKey,
        .tree (.ofList [("id", .scalar .int), ("price", .scalar .float)]))])) := by decide +kernel
  obtain ⟨n, hn, happart⟩ := hnodes ["shop", "item"] (helements _ _ (by simp) (by decide) hitem)
  cases hn.symm.trans hitem
  exact ⟨hshape, root, _, hspells, hitem, by decide +kernel, happart⟩

/-- An element with an attribute, and another in it under the key of attributes. -/
def nestedProperties : String := "<a x=\"1\"><properties><c/></properties></a>"

def nestedPropertiesRoot : Tree :=
  .element "a" [("x", "1")] [.element "properties" [] [.element "c" [] []]]

theorem spells_nestedProperties :
    Spells ((Event.read nestedProperties).filter (· ≠ .skipped)) nestedPropertiesRoot := by
  have hread : (Event.read nestedProperties).filter (· ≠ .skipped) =
      [.opened "a" [.pair "x" "1"], .opened "properties" [], .emptied "c" [], .closed,
        .closed] := by decide +kernel
  have hinner : Content [.emptied "c" []] [.element "c" [] []] :=
    @Content.emptied "c" [] _ _ .nil
  have hproperties : Content [.opened "properties" [], .emptied "c" [], .closed]
      [.element "properties" [] [.element "c" [] []]] :=
    @Content.nested "properties" [] _ _ _ _ hinner .nil
  rw [hread]
  exact @Spells.nested "a" [("x", "1")] _ _ hproperties

/-- **Attributes and children can mix**: a child with the tag `properties` is widened into the
attributes, and then there is a structure among these. -/
theorem not_attributesApart_nested :
    shapeOf 16 nestedProperties.toUTF8 = .ok nestedPropertiesRoot.shape ∧
      nestedPropertiesRoot.attributeNames ["a"] = ["x"] ∧
      ∃ n, (Shape.tree nestedPropertiesRoot.shape).at? ["a"] = some (.tree n) ∧
        n.get? attributesKey =
          some (.tree (.ofList [("c", .tree ∅), ("x", .scalar .int)])) ∧
        ¬ n.AttributesApart (nestedPropertiesRoot.attributeNames ["a"]) := by
  have hshape : shapeOf 16 nestedProperties.toUTF8 = .ok nestedPropertiesRoot.shape :=
    shapeOf_eq_ok_iff.2 ⟨nestedProperties, nestedPropertiesRoot,
      Utf8.fromUTF8?_toUTF8 nestedProperties, spells_nestedProperties, by decide +kernel, rfl⟩
  have helement : (Shape.tree nestedPropertiesRoot.shape).at? ["a"] =
      some (.tree (.ofList [(attributesKey,
        .tree (.ofList [("c", .tree ∅), ("x", .scalar .int)]))])) := by decide +kernel
  refine ⟨hshape, by decide +kernel, _, helement, by decide +kernel, fun h => ?_⟩
  obtain ⟨c, hc, hflat, -⟩ := h (.tree (.ofList [("c", .tree ∅), ("x", .scalar .int)]))
    (by decide +kernel)
  cases hc
  obtain ⟨x, hx⟩ := hflat "c" (.tree ∅) (by decide +kernel)
  cases hx

end Xml

end TrafficSchema
