import TrafficSchema.Proofs.Except
import TrafficSchema.Proofs.Shape.Leaves
import TrafficSchema.Xml.Shape

/-!
# Documents as trees

The events of a document spell a tree of elements (`Spells`), and the shape of an element is
defined on the tree (`Tree.node`). Reading the events one by one, with the open elements on a stack,
computes the same: a run succeeds just if the events spell a tree that is not too deep, and gives
the shape of this tree (`shapeOfEvents_eq_ok_iff`).

That a tree is read as it is spelled is an induction on the spelling (`Content.foldlM_step`). For
the converse each state of a run stands for what the events so far have spelled (`Builder.Reads`):
the stack holds an element for each tree that has been opened, with the children closed so far
(`Open`).
-/

namespace TrafficSchema.Xml

/-! ## Trees -/

/-- An element with its attributes, in order, and the elements in it. -/
inductive Tree
  | element (tag : String) (attributes : List (String × String)) (children : List Tree)

namespace Tree

def tag : Tree → String
  | element tag _ _ => tag

mutual

/-- How deep elements are nested, the outermost included. -/
def depth : Tree → Nat
  | element _ _ children => depths children + 1

/-- How deep the elements of a list are nested. -/
def depths : List Tree → Nat
  | [] => 0
  | tree :: rest => max tree.depth (depths rest)

end

/-- The types of attributes. Those of one name are widened. -/
def tags : List (String × String) → ShapeTree
  | [] => ∅
  | (name, value) :: rest => .singleton name (.scalar (Tag.infer value)) ⊔ tags rest

/-- The attributes of an element, if it has any. -/
def attributeShape (attributes : List (String × String)) : ShapeTree :=
  if attributes = [] then ∅ else .singleton attributesKey (.tree (tags attributes))

mutual

/-- The shape of an element: its attributes and its children, widened. -/
def node : Tree → ShapeTree
  | element _ attributes children => attributeShape attributes ⊔ childShape children

/-- The shape of elements in a row: each has a field for its shape, and these are widened. -/
def childShape : List Tree → ShapeTree
  | [] => ∅
  | tree :: rest => .singleton tree.tag (.tree tree.node) ⊔ childShape rest

end

/-- The shape of the document that has the tree as its root. -/
def shape (root : Tree) : ShapeTree := .singleton root.tag (.tree root.node)

theorem depths_append (l m : List Tree) : depths (l ++ m) = max (depths l) (depths m) := by
  induction l with
  | nil => simp [depths]
  | cons tree l ih => rw [List.cons_append, depths, ih, depths, Nat.max_assoc]

theorem childShape_append (l m : List Tree) :
    childShape (l ++ m) = childShape l ⊔ childShape m := by
  induction l with
  | nil => exact (ShapeTree.empty_sup _).symm
  | cons tree l ih => rw [List.cons_append, childShape, ih, childShape, sup_assoc]

theorem node_nil (tag : String) (attributes : List (String × String)) :
    (element tag attributes []).node = attributeShape attributes :=
  ShapeTree.sup_empty (attributeShape attributes)

/-- An element with one more child. -/
theorem node_concat (tag : String) (attributes : List (String × String)) (children : List Tree)
    (child : Tree) : (element tag attributes (children ++ [child])).node =
      (element tag attributes children).node ⊔ .singleton child.tag (.tree child.node) := by
  rw [node, node, childShape_append, childShape, childShape, ShapeTree.sup_empty, sup_assoc]

end Tree

/-! ## Spelling -/

/-- Attributes as they are read if all of them are well formed. -/
def Attribute.pairs (attributes : List (String × String)) : List Attribute :=
  attributes.map fun a => .pair a.1 a.2

/-- The events between the tags of an element spell its children; text does not matter. -/
inductive Content : List Event → List Tree → Prop
  | nil : Content [] []
  | text {events : List Event} {trees : List Tree} (rest : Content events trees) :
      Content (.text :: events) trees
  | emptied {tag : String} {attributes : List (String × String)} {events : List Event}
      {trees : List Tree} (rest : Content events trees) :
      Content (.emptied tag (Attribute.pairs attributes) :: events)
        (.element tag attributes [] :: trees)
  | nested {tag : String} {attributes : List (String × String)} {inner events : List Event}
      {children trees : List Tree} (content : Content inner children)
      (rest : Content events trees) :
      Content (.opened tag (Attribute.pairs attributes) :: (inner ++ .closed :: events))
        (.element tag attributes children :: trees)

/-- The events spell a single element. -/
inductive Spells : List Event → Tree → Prop
  | emptied (tag : String) (attributes : List (String × String)) :
      Spells [.emptied tag (Attribute.pairs attributes)] (.element tag attributes [])
  | nested {tag : String} {attributes : List (String × String)} {inner : List Event}
      {children : List Tree} (content : Content inner children) :
      Spells (.opened tag (Attribute.pairs attributes) :: (inner ++ [.closed]))
        (.element tag attributes children)

theorem Spells.content {events : List Event} {tree : Tree} (h : Spells events tree) :
    Content events [tree] := by
  cases h with
  | emptied tag attributes => exact .emptied .nil
  | nested content => exact .nested content .nil

theorem Content.append {events events' : List Event} {trees trees' : List Tree}
    (h : Content events trees) (h' : Content events' trees') :
    Content (events ++ events') (trees ++ trees') := by
  induction h with
  | nil => exact h'
  | text _ ih => exact .text ih
  | emptied _ ih => exact .emptied ih
  | nested content _ _ ih =>
    rw [List.cons_append, List.append_assoc]
    exact .nested content ih

/-! ## Attributes -/

namespace Builder

variable {tag : String} {attributes : List Attribute} {t u : ShapeTree}

/-- The attributes of an element are read just if all are well formed. -/
theorem attributeTags_eq_ok_iff : attributeTags tag attributes t = .ok u ↔
    ∃ pairs, attributes = Attribute.pairs pairs ∧ u = t ⊔ Tree.tags pairs := by
  induction attributes generalizing t with
  | nil =>
    constructor
    · intro h
      cases h
      exact ⟨[], rfl, (ShapeTree.sup_empty _).symm⟩
    · rintro ⟨_ | ⟨pair, pairs⟩, hpairs, rfl⟩
      · exact congrArg Except.ok (ShapeTree.sup_empty _).symm
      · cases hpairs
  | cons head rest ih =>
    cases head with
    | pair name value =>
      rw [attributeTags, ih, ShapeTree.observe_eq_sup]
      constructor
      · rintro ⟨pairs, rfl, rfl⟩
        exact ⟨(name, value) :: pairs, rfl, sup_assoc ..⟩
      · rintro ⟨_ | ⟨pair, pairs⟩, hpairs, rfl⟩
        · cases hpairs
        · cases hpairs
          exact ⟨pairs, rfl, (sup_assoc ..).symm⟩
    | badValue | malformed =>
      refine ⟨nofun, ?_⟩
      rintro ⟨_ | ⟨pair, pairs⟩, hpairs, -⟩ <;> cases hpairs

theorem nodeOf_tags (pairs : List (String × String)) :
    nodeOf (Tree.tags pairs) = Tree.attributeShape pairs := by
  unfold nodeOf Tree.attributeShape
  cases pairs with
  | nil => rfl
  | cons pair pairs =>
    have hne : ¬ (Tree.tags (pair :: pairs)).isEmpty := by
      rw [ShapeTree.isEmpty, Dict.isEmpty_iff, Dict.eq_empty_iff]
      intro hnone
      obtain ⟨b, hb, -⟩ := ShapeTree.singleton_le_iff.1
        (le_sup_left (b := Tree.tags pairs) (a := .singleton pair.1 (.scalar (Tag.infer pair.2))))
      exact Option.some_ne_none b (hb.symm.trans (hnone pair.1))
    rw [if_neg hne, if_neg (List.cons_ne_nil pair pairs)]

/-- **When an element is opened**: behind the root there is none, its depth is within the limit, and
its attributes are well formed. -/
theorem element_eq_ok_iff {b : Builder} {limit : Nat} {e : Element} :
    b.element limit tag attributes = .ok e ↔ (b.stack = [] → b.root = none) ∧
      b.stack.length + 1 ≤ limit ∧
      ∃ pairs, attributes = Attribute.pairs pairs ∧ e = ⟨tag, Tree.attributeShape pairs⟩ := by
  unfold element
  split
  · rename_i hroot
    refine ⟨nofun, fun ⟨h, _⟩ => ?_⟩
    simp only [Bool.and_eq_true, List.isEmpty_iff] at hroot
    rw [h hroot.1] at hroot
    cases hroot.2
  · rename_i hroot
    have hroot : b.stack = [] → b.root = none := by
      simpa [List.isEmpty_iff, Option.isSome_iff_ne_none] using hroot
    split
    · rename_i hdeep
      exact ⟨nofun, fun ⟨_, h, _⟩ => absurd h (Nat.not_le.2 hdeep)⟩
    · rename_i hdeep
      rw [bind_eq_ok_iff]
      simp only [attributeTags_eq_ok_iff, ShapeTree.empty_sup]
      constructor
      · rintro ⟨_, ⟨pairs, hpairs, rfl⟩, h⟩
        cases h
        exact ⟨hroot, Nat.not_lt.1 hdeep, pairs, hpairs, by rw [nodeOf_tags]⟩
      · rintro ⟨-, -, pairs, hpairs, rfl⟩
        exact ⟨_, ⟨pairs, hpairs, rfl⟩, by rw [nodeOf_tags]; rfl⟩

theorem step_opened {b : Builder} {limit : Nat} {e : Element}
    (h : b.element limit tag attributes = .ok e) :
    b.step limit (.opened tag attributes) = .ok ⟨e :: b.stack, b.root⟩ := by
  rw [step, h]
  rfl

theorem step_emptied {b : Builder} {limit : Nat} {e : Element}
    (h : b.element limit tag attributes = .ok e) :
    b.step limit (.emptied tag attributes) = .ok (close e b.stack b.root) := by
  rw [step, h]
  rfl

theorem close_cons (e parent : Element) (stack : List Element) (root : Option Element) :
    close e (parent :: stack) root =
      ⟨⟨parent.tag, parent.node ⊔ .singleton e.tag (.tree e.node)⟩ :: stack, root⟩ := by
  rw [close, ShapeTree.observe_eq_sup]

end Builder

/-! ## From a tree to a run -/

/-- The content of an element is read into it. -/
theorem Content.foldlM_step {events : List Event} {trees : List Tree}
    (h : Content events trees) (limit : Nat) (e : Element) (stack : List Element)
    (root : Option Element) (hdepth : stack.length + 1 + Tree.depths trees ≤ limit) :
    events.foldlM (Builder.step limit) ⟨e :: stack, root⟩ =
      .ok ⟨⟨e.tag, e.node ⊔ Tree.childShape trees⟩ :: stack, root⟩ := by
  induction h generalizing e stack with
  | nil =>
    have hnode : e.node ⊔ Tree.childShape [] = e.node := ShapeTree.sup_empty e.node
    rw [hnode]
    rfl
  | text _ ih => exact ih e stack hdepth
  | @emptied tag attributes events trees _ ih =>
    rw [Tree.depths, Tree.depth, Tree.depths] at hdepth
    have hopen : Builder.element ⟨e :: stack, root⟩ limit tag (Attribute.pairs attributes) =
        .ok ⟨tag, Tree.attributeShape attributes⟩ :=
      Builder.element_eq_ok_iff.2 ⟨nofun, by rw [List.length_cons]; omega, attributes, rfl, rfl⟩
    rw [List.foldlM_cons, Builder.step_emptied hopen, Builder.close_cons, Tree.childShape,
      Tree.node_nil, ← sup_assoc]
    exact ih _ stack (by omega)
  | @nested tag attributes inner events children trees _ _ ihinner ih =>
    rw [Tree.depths, Tree.depth] at hdepth
    have hopen : Builder.element ⟨e :: stack, root⟩ limit tag (Attribute.pairs attributes) =
        .ok ⟨tag, Tree.attributeShape attributes⟩ :=
      Builder.element_eq_ok_iff.2 ⟨nofun, by rw [List.length_cons]; omega, attributes, rfl, rfl⟩
    have hinner := ihinner ⟨tag, Tree.attributeShape attributes⟩ (e :: stack)
      (by rw [List.length_cons]; omega)
    rw [List.foldlM_cons, Builder.step_opened hopen]
    change List.foldlM _ _ _ = _
    rw [List.foldlM_append, hinner]
    change List.foldlM _ (Builder.close _ (e :: stack) root) _ = _
    rw [Builder.close_cons, Tree.childShape, ← sup_assoc]
    exact ih _ stack (by omega)

/-- **A document is read as it is spelled.** -/
theorem Spells.foldlM_step {limit : Nat} {events : List Event} {root : Tree}
    (h : Spells events root) (hdepth : root.depth ≤ limit) :
    events.foldlM (Builder.step limit) .start = .ok ⟨[], some ⟨root.tag, root.node⟩⟩ := by
  have hopen {tag : String} {attributes : List (String × String)} (hlimit : 1 ≤ limit) :
      Builder.start.element limit tag (Attribute.pairs attributes) =
        .ok ⟨tag, Tree.attributeShape attributes⟩ :=
    Builder.element_eq_ok_iff.2 ⟨fun _ => rfl, hlimit, attributes, rfl, rfl⟩
  cases h with
  | emptied tag attributes =>
    rw [Tree.depth, Tree.depths] at hdepth
    rw [List.foldlM_cons, Builder.step_emptied (hopen hdepth), Tree.node_nil]
    rfl
  | @nested tag attributes inner children content =>
    rw [Tree.depth] at hdepth
    have hinner := content.foldlM_step limit ⟨tag, Tree.attributeShape attributes⟩ []
      none (by rw [List.length_nil]; omega)
    rw [List.foldlM_cons, Builder.step_opened (hopen (by omega))]
    change List.foldlM _ _ _ = _
    rw [List.foldlM_append, show Builder.start.stack = [] from rfl,
      show Builder.start.root = none from rfl, hinner]
    rfl

/-! ## From a run to a tree -/

/-- The events open elements that are not closed yet, the innermost first, and have spelled the
children that each of them has so far. None of them is too deep. -/
inductive Open (limit : Nat) : List Event → List Tree → Prop
  | outside : Open limit [] []
  | opened {tag : String} {attributes : List (String × String)} {before inner : List Event}
      {outer children : List Tree} (around : Open limit before outer)
      (content : Content inner children)
      (depth : outer.length + 1 + Tree.depths children ≤ limit) :
      Open limit (before ++ .opened tag (Attribute.pairs attributes) :: inner)
        (.element tag attributes children :: outer)

theorem Open.length_le {limit : Nat} {events : List Event} {trees : List Tree}
    (h : Open limit events trees) : trees.length ≤ limit := by
  cases h with
  | outside => exact Nat.zero_le limit
  | opened around content depth =>
    rw [List.length_cons]
    omega

/-- What is spelled inside is put into the innermost element. -/
theorem Open.append {limit : Nat} {events more : List Event} {tag : String}
    {attributes : List (String × String)} {children trees outer : List Tree}
    (h : Open limit events (.element tag attributes children :: outer)) (hmore : Content more trees)
    (hdepth : outer.length + 1 + Tree.depths trees ≤ limit) :
    Open limit (events ++ more) (.element tag attributes (children ++ trees) :: outer) := by
  cases h with
  | opened around content depth =>
    rw [List.append_assoc, List.cons_append]
    refine .opened around (content.append hmore) ?_
    rw [Tree.depths_append]
    omega

/-- The element that stands for a tree in a state. -/
def Tree.toElement (tree : Tree) : Element := ⟨tree.tag, tree.node⟩

/-- What the state of a run tells of the events so far: they open the elements on the stack, or they
have spelled the root element. -/
inductive Builder.Reads (limit : Nat) (events : List Event) : Builder → Prop
  | inside {trees : List Tree} (h : Open limit events trees) :
      Reads limit events ⟨trees.map Tree.toElement, none⟩
  | done {root : Tree} (h : Spells events root) (depth : root.depth ≤ limit) :
      Reads limit events ⟨[], some root.toElement⟩

/-- A complete element is put into the innermost open one, or is the root. -/
theorem Open.close {limit : Nat} {events more : List Event} {outer : List Tree} {tree : Tree}
    (h : Open limit events outer) (hmore : Spells more tree)
    (hdepth : outer.length + tree.depth ≤ limit) :
    (Builder.close tree.toElement (outer.map Tree.toElement) none).Reads limit
      (events ++ more) := by
  cases outer with
  | nil =>
    cases h
    exact .done hmore (by simpa using hdepth)
  | cons parent outer =>
    obtain ⟨tag, attributes, children⟩ := parent
    have hopen := h.append hmore.content (by simpa [Tree.depths] using hdepth)
    have hreads := Builder.Reads.inside hopen
    rw [List.map_cons, Tree.toElement, Tree.node_concat] at hreads
    rw [List.map_cons, Builder.close_cons]
    exact hreads

section Step

variable {limit : Nat} {events : List Event} {trees : List Tree} {tree : Tree}

theorem Open.reads_opened (h : Open limit events trees) (hdepth : trees.length + 1 ≤ limit)
    (tag : String) (attributes : List (String × String)) :
    Builder.Reads limit (events ++ [.opened tag (Attribute.pairs attributes)])
      ⟨⟨tag, Tree.attributeShape attributes⟩ :: trees.map Tree.toElement, none⟩ := by
  have hopened : Open limit (events ++ [.opened tag (Attribute.pairs attributes)])
      (.element tag attributes [] :: trees) :=
    .opened h .nil (by simpa [Tree.depths] using hdepth)
  have hreads := Builder.Reads.inside hopened
  rw [List.map_cons, Tree.toElement, Tree.node_nil] at hreads
  exact hreads

theorem Open.reads_emptied (h : Open limit events trees) (hdepth : trees.length + 1 ≤ limit)
    (tag : String) (attributes : List (String × String)) :
    (Builder.close ⟨tag, Tree.attributeShape attributes⟩ (trees.map Tree.toElement) none).Reads
      limit (events ++ [.emptied tag (Attribute.pairs attributes)]) := by
  have hreads := h.close (.emptied tag attributes)
    (by simpa [Tree.depth, Tree.depths] using hdepth)
  rw [Tree.toElement, Tree.node_nil] at hreads
  exact hreads

theorem Open.reads_closed (h : Open limit events (tree :: trees)) :
    (Builder.close tree.toElement (trees.map Tree.toElement) none).Reads limit
      (events ++ [.closed]) := by
  cases h with
  | @opened tag attributes before inner outer children around content depth =>
    rw [List.append_assoc, List.cons_append]
    refine around.close (.nested content) ?_
    rw [Tree.depth]
    omega

theorem Open.reads_text (h : Open limit events (tree :: trees)) :
    Builder.Reads limit (events ++ [.text]) ⟨(tree :: trees).map Tree.toElement, none⟩ := by
  obtain ⟨tag, attributes, children⟩ := tree
  have hreads := Builder.Reads.inside (h.append (.text .nil) h.length_le)
  rw [List.append_nil] at hreads
  exact hreads

end Step

/-- **Every event that is read is spelled.** -/
theorem Builder.Reads.step {limit : Nat} {events : List Event} {b b' : Builder}
    (h : b.Reads limit events) {event : Event} (hskipped : event ≠ .skipped)
    (hstep : b.step limit event = .ok b') : b'.Reads limit (events ++ [event]) := by
  cases h with
  | done hspells hdepth =>
    -- behind the root element there is nothing more to read
    cases event with
    | opened tag attributes | emptied tag attributes =>
      obtain ⟨e, he, -⟩ := bind_eq_ok_iff.1 hstep
      cases (element_eq_ok_iff.1 he).1 rfl
    | closed | text | fault => cases hstep
    | skipped => exact absurd rfl hskipped
  | @inside trees hopen =>
    cases event with
    | opened tag attributes =>
      obtain ⟨e, he, hstep⟩ := bind_eq_ok_iff.1 hstep
      obtain ⟨-, hdepth, pairs, rfl, rfl⟩ := element_eq_ok_iff.1 he
      cases hstep
      exact hopen.reads_opened (by simpa using hdepth) tag pairs
    | emptied tag attributes =>
      obtain ⟨e, he, hstep⟩ := bind_eq_ok_iff.1 hstep
      obtain ⟨-, hdepth, pairs, rfl, rfl⟩ := element_eq_ok_iff.1 he
      cases hstep
      exact hopen.reads_emptied (by simpa using hdepth) tag pairs
    | closed =>
      cases trees with
      | nil => cases hstep
      | cons tree outer =>
        cases hstep
        exact hopen.reads_closed
    | text =>
      cases trees with
      | nil => cases hstep
      | cons tree outer =>
        cases hstep
        exact hopen.reads_text
    | skipped => exact absurd rfl hskipped
    | fault => cases hstep

/-! ## Runs -/

variable {limit : Nat} {events : List Event}

/-- The events that are read, skipped ones left out. -/
theorem Builder.reads_of_foldlM {b : Builder}
    (h : events.foldlM (Builder.step limit) .start = .ok b) :
    b.Reads limit (events.filter (· ≠ .skipped)) := by
  refine foldlM_history (P := fun events b => b.Reads limit (events.filter (· ≠ .skipped)))
    (fun before event b b' hreads hstep => ?_) (.inside .outside) h
  rw [List.filter_append]
  by_cases hskipped : event = .skipped
  · subst hskipped
    cases hstep
    simpa using hreads
  · rw [List.filter_cons_of_pos (by simpa using hskipped)]
    exact hreads.step hskipped hstep

/-- **Reading succeeds just if the events spell an element** that is not too deep, and gives its
shape. -/
theorem shapeOfEvents_eq_ok_iff {t : ShapeTree} : shapeOfEvents limit events = .ok t ↔
    ∃ root, Spells (events.filter (· ≠ .skipped)) root ∧ root.depth ≤ limit ∧ t = root.shape := by
  constructor
  · intro h
    obtain ⟨b, hrun, hfinish⟩ := bind_eq_ok_iff.1 h
    cases Builder.reads_of_foldlM hrun with
    | done hspells hdepth =>
      cases hfinish
      exact ⟨_, hspells, hdepth, rfl⟩
    | @inside trees hopen => cases trees <;> cases hfinish
  · rintro ⟨root, hspells, hdepth, rfl⟩
    have hrun := hspells.foldlM_step hdepth
    rw [foldlM_filter fun b event hevent => ?_] at hrun
    · rw [shapeOfEvents, hrun]
      rfl
    · obtain rfl : event = .skipped := by simpa using hevent
      rfl

/-- A body has the shape of the document that it is the text of. -/
theorem shapeOf_eq_ok_iff {body : ByteArray} {t : ShapeTree} : shapeOf limit body = .ok t ↔
    ∃ text root, String.fromUTF8? body = some text ∧
      Spells ((Event.read text).filter (· ≠ .skipped)) root ∧ root.depth ≤ limit ∧
      t = root.shape := by
  rw [shapeOf]
  cases String.fromUTF8? body with
  | none => exact ⟨nofun, nofun⟩
  | some text =>
    refine shapeOfEvents_eq_ok_iff.trans ⟨?_, ?_⟩
    · rintro ⟨root, h⟩
      exact ⟨text, root, rfl, h⟩
    · rintro ⟨_, root, htext, h⟩
      cases htext
      exact ⟨root, h⟩

end TrafficSchema.Xml
