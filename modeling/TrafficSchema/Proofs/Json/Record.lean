import TrafficSchema.Json.Record
import TrafficSchema.Proofs.Dict
import TrafficSchema.Proofs.Except
import TrafficSchema.Proofs.Json.Text

/-!
# Decoding what was encoded

An object with the entries of a dictionary (`Value.ofDict`) is decoded as that dictionary, if its
values are (`Node.toDict_ofDict`). An object with the fields of a record in their order is decoded
like the array of their values (`Node.toRecord_zipWith`).

Conversely, what holds of every decoded value holds of all values of a decoded dictionary
(`Node.toDict_forall`), and what every field keeps holds of a decoded record
(`Node.toRecord_invariant`).
-/

namespace TrafficSchema

namespace Json

/-! ## Encoded dictionaries -/

namespace Value

variable {α : Type} {encode : α → Value} {d : Dict α}

/-- An object with the entries of a dictionary. -/
def ofDict (encode : α → Value) (d : Dict α) : Value :=
  .object (d.entries.map fun e => (e.1, encode e.2))

theorem ofDict_map {β : Type} (encode : α → Value) (f : β → α) (d : Dict β) :
    ofDict encode (d.map fun _ => f) = ofDict (fun b => encode (f b)) d := by
  simp only [ofDict, Dict.map, List.map_map]
  rfl

theorem toNode_ofDict : (ofDict encode d).toNode =
    .object (d.entries.map fun e => (some e.1, (encode e.2).toNode)) := by
  rw [ofDict, toNode, membersToNodes_eq_map, List.map_map]
  rfl

theorem numberFree_ofDict (h : d.Forall fun a => (encode a).numberFree) :
    (ofDict encode d).numberFree := by
  rw [ofDict, numberFree, membersNumberFree_iff, List.forall_mem_map]
  exact fun e he => h e.1 e.2 (Dict.mem_entries_iff.1 he)

/-- An encoded dictionary is nested one level deeper than its values. -/
theorem depth_ofDict_le_iff {n : Nat} :
    (ofDict encode d).depth ≤ n + 1 ↔ d.Forall fun a => (encode a).depth ≤ n := by
  rw [ofDict, depth, Nat.add_le_add_iff_right, membersDepth_le_iff, List.forall_mem_map]
  constructor
  · exact fun h key a ha => h (key, a) (Dict.mem_entries_iff.2 ha)
  · exact fun h e he => h e.1 e.2 (Dict.mem_entries_iff.1 he)

end Value

/-! ## Decoded values -/

namespace Node

variable {α β σ : Type}

theorem orDefault_eq_ok [Inhabited α] {decoder : Node → Decoded α} {node : Node} {a : α}
    (h : orDefault decoder node = .ok a) : a = default ∨ decoder node = .ok a := by
  unfold orDefault at h
  split at h
  · cases h
    exact .inl rfl
  · exact .inr h

/-! ## Dictionaries -/

theorem membersToDict_map {decoder : Node → Decoded α} {node : β → Node} {value : β → α}
    {l : List (String × β)} (h : ∀ e ∈ l, decoder (node e.2) = .ok (value e.2)) (d : Dict α) :
    membersToDict decoder (l.map fun e => (some e.1, node e.2)) d =
      .ok (l.foldl (fun acc e => acc.insert e.1 (value e.2)) d) := by
  induction l generalizing d with
  | nil => rfl
  | cons e l ih =>
    rw [List.map_cons, membersToDict, h e List.mem_cons_self]
    exact ih (fun e' he' => h e' (List.mem_cons_of_mem e he')) (d.insert e.1 (value e.2))

/-- Decoding the entries of a dictionary decodes its values. -/
theorem membersToDict_entries {decoder : Node → Decoded α} {node : β → Node} {value : β → α}
    {d : Dict β} (h : d.Forall fun b => decoder (node b) = .ok (value b)) :
    membersToDict decoder (d.entries.map fun e => (some e.1, node e.2)) ∅ =
      .ok (d.map fun _ => value) := by
  rw [membersToDict_map fun e he => h e.1 e.2 (Dict.mem_entries_iff.1 he),
    Dict.foldl_insert_entries]

theorem orDefault_ofDict [Inhabited α] (decoder : Node → Decoded α) (encode : β → Value)
    (d : Dict β) : orDefault decoder (Value.ofDict encode d).toNode =
      decoder (Value.ofDict encode d).toNode := by
  rw [Value.toNode_ofDict]
  rfl

/-- **An object with the entries of a dictionary is decoded as the dictionary of the decoded
values.** -/
theorem toDict_ofDict {decoder : Nat → Node → Decoded α} {encode : β → Value} {value : β → α}
    {d : Dict β} {n : Nat}
    (h : d.Forall fun b => decoder n (encode b).toNode = .ok (value b)) :
    (Value.ofDict encode d).toNode.toDict decoder (n + 1) = .ok (d.map fun _ => value) := by
  rw [Value.toNode_ofDict]
  exact membersToDict_entries h

theorem membersToDict_forall {p : α → Prop} {decoder : Node → Decoded α}
    (hdecoder : ∀ node a, decoder node = .ok a → p a) {members : List Member} {d e : Dict α}
    (hd : d.Forall p) (h : membersToDict decoder members d = .ok e) : e.Forall p := by
  induction members generalizing d with
  | nil =>
    cases h
    exact hd
  | cons member members ih =>
    obtain ⟨key, node⟩ := member
    cases key with
    | none => cases h
    | some key =>
      rw [membersToDict, bind_eq_ok_iff] at h
      obtain ⟨a, ha, h⟩ := h
      exact ih (hd.insert key (hdecoder node a ha)) h

theorem toDict_forall {p : α → Prop} {decoder : Nat → Node → Decoded α} {depth : Nat}
    (hdecoder : ∀ node a, decoder depth node = .ok a → p a) {node : Node} {d : Dict α}
    (h : node.toDict decoder (depth + 1) = .ok d) : d.Forall p := by
  unfold toDict at h
  split at h
  · rename_i n members heq
    cases heq
    exact membersToDict_forall hdecoder (Dict.forall_empty p) h
  · cases h

/-! ## Records -/

theorem find?_name_eq {fields : List (RecordField σ)} (hnodup : (fields.map (·.name)).Nodup)
    {field : RecordField σ} (hfield : field ∈ fields) :
    fields.find? (·.name == field.name) = some field := by
  induction fields with
  | nil => cases hfield
  | cons first fields ih =>
    rw [List.map_cons, List.nodup_cons] at hnodup
    rcases List.mem_cons.1 hfield with rfl | hfield
    · simp
    · have hne : first.name ≠ field.name := by
        intro heq
        rw [heq] at hnodup
        exact hnodup.1 (List.mem_map_of_mem hfield)
      rw [List.find?_cons_of_neg (by simpa using hne), ih hnodup.2 hfield]

/-- Fields in their order are read one after the other. -/
theorem membersToRecord_zipWith {fields : List (RecordField σ)}
    (hnodup : (fields.map (·.name)).Nodup) (depth : Nat) (before after : List (RecordField σ))
    (hfields : before.reverse ++ after = fields) {nodes : List Node}
    (hlength : nodes.length ≤ after.length) (record : σ) :
    membersToRecord fields depth
        (List.zipWith (fun field node => (some field.name, node)) after nodes)
        (before.map (·.name)) record =
      itemsToRecord depth after nodes record := by
  induction nodes generalizing before after record with
  | nil =>
    rw [List.zipWith_nil_right, membersToRecord]
    cases after <;> rfl
  | cons node nodes ih =>
    cases after with
    | nil => simp at hlength
    | cons field after =>
      have hmem : field ∈ fields := by simp [← hfields]
      have hseen : (before.map (·.name)).contains field.name = false := by
        rw [← hfields, List.map_append, List.nodup_append] at hnodup
        simp only [List.contains_eq_mem, decide_eq_false_iff_not]
        intro hin
        exact hnodup.2.2 field.name (by simpa using hin) field.name (by simp) rfl
      rw [List.zipWith_cons_cons, membersToRecord, find?_name_eq hnodup hmem, itemsToRecord]
      simp only [hseen, Bool.false_eq_true, if_false]
      cases field.decode depth node record with
      | error e => rfl
      | ok next =>
        exact ih (field :: before) after (by simpa using hfields) (by simpa using hlength) next

/-- **An object with the fields of a record is read like the array of their values.** -/
theorem toRecord_zipWith {fields : List (RecordField σ)} (hnodup : (fields.map (·.name)).Nodup)
    (initial : σ) (depth : Nat) {nodes : List Node} (hlength : nodes.length ≤ fields.length) :
    toRecord fields initial (depth + 1)
        (.object (List.zipWith (fun field node => (some field.name, node)) fields nodes)) =
      itemsToRecord depth fields nodes initial :=
  membersToRecord_zipWith hnodup depth [] fields rfl hlength initial

theorem membersToRecord_invariant {p : σ → Prop} {fields : List (RecordField σ)} {depth : Nat}
    (hfield : ∀ field ∈ fields, ∀ node r r', field.decode depth node r = .ok r' → p r → p r')
    {members : List Member} {seen : List String} {r r' : σ} (hr : p r)
    (h : membersToRecord fields depth members seen r = .ok r') : p r' := by
  induction members generalizing seen r with
  | nil =>
    cases h
    exact hr
  | cons member members ih =>
    obtain ⟨key, node⟩ := member
    cases key with
    | none => cases h
    | some key =>
      rw [membersToRecord] at h
      split at h
      · rw [bind_eq_ok_iff] at h
        obtain ⟨-, -, h⟩ := h
        exact ih hr h
      · rename_i field hfind
        split at h
        · cases h
        · rw [bind_eq_ok_iff] at h
          obtain ⟨next, hnext, h⟩ := h
          exact ih (hfield field (List.mem_of_find?_eq_some hfind) node r next hnext hr) h

theorem itemsToRecord_invariant {p : σ → Prop} {fields : List (RecordField σ)} {depth : Nat}
    (hfield : ∀ field ∈ fields, ∀ node r r', field.decode depth node r = .ok r' → p r → p r')
    {items : List Node} {r r' : σ} (hr : p r) (h : itemsToRecord depth fields items r = .ok r') :
    p r' := by
  induction items generalizing fields r with
  | nil =>
    cases fields <;> cases h <;> exact hr
  | cons item items ih =>
    cases fields with
    | nil => cases h
    | cons field fields =>
      rw [itemsToRecord, bind_eq_ok_iff] at h
      obtain ⟨next, hnext, h⟩ := h
      exact ih (fun field' hmem => hfield field' (List.mem_cons_of_mem field hmem))
        (hfield field List.mem_cons_self item r next hnext hr) h

/-- **What all fields of a record keep holds of a decoded record**, if it holds of the
defaults. -/
theorem toRecord_invariant {p : σ → Prop} {fields : List (RecordField σ)} {initial : σ}
    {depth : Nat} (hinitial : p initial)
    (hfield : ∀ field ∈ fields, ∀ node r r', field.decode depth node r = .ok r' → p r → p r')
    {node : Node} {r : σ} (h : node.toRecord fields initial (depth + 1) = .ok r) : p r := by
  unfold toRecord at h
  split at h
  · rename_i n members heq
    cases heq
    exact membersToRecord_invariant hfield hinitial h
  · rename_i n items heq
    cases heq
    exact itemsToRecord_invariant hfield hinitial h
  · cases h

end Node

end Json

end TrafficSchema
