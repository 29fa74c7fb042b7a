import TrafficSchema.Json.Node
import TrafficSchema.Json.Printer

/-!
# Reading printed JSON

The text of a value, in either layout, is read as the tree of that value (`Value.read_text`), and
decoded as the value itself unless it is nested too deep (`Value.ofText_text`). This is said of
values without numbers, which are all that schema files hold.

Strings come first: a character is written in a way that is read as that character again
(`Token.pieces?_escape`). Then white space is passed over, and what remains drives the automaton
through a value, whatever stands before and after it (`Value.foldl_scan_render`).
-/

namespace TrafficSchema.Json

namespace Token

/-! ## Strings -/

theorem codeUnit?_hexDigit :
    ∀ n < 0x20, codeUnit? '0' '0' (hexDigit (n / 16)) (hexDigit (n % 16)) = some n := by
  decide

theorem text?_char (c : Char) (pieces : List Piece) :
    text? (.char c :: pieces) = (text? pieces).map (c :: ·) := rfl

theorem text?_unit {c : Char} (h : c.toNat < 0x20) (pieces : List Piece) :
    text? (.unit c.toNat :: pieces) = (text? pieces).map (c :: ·) := by
  have hhigh : isHighSurrogate c.toNat = false := by
    simp only [isHighSurrogate, Bool.and_eq_false_iff, decide_eq_false_iff_not]
    omega
  have hlow : isLowSurrogate c.toNat = false := by
    simp only [isLowSurrogate, Bool.and_eq_false_iff, decide_eq_false_iff_not]
    omega
  rw [text?.eq_def]
  simp only [hhigh, hlow, Bool.false_eq_true, if_false, Char.ofNat_toNat]

theorem pieces?_cons {c : Char} (hquote : c ≠ '"') (hslash : c ≠ '\\') (h : ¬ c.toNat < 0x20)
    (rest : List Char) :
    pieces? (c :: rest) = (pieces? rest).map fun p => (.char c :: p.1, p.2) := by
  rw [pieces?]
  · rw [if_neg (by simp [h, hslash])]
    cases pieces? rest <;> rfl
  · exact hquote
  · exact fun _ _ _ _ _ hc => absurd hc hslash
  · exact fun _ _ hc => absurd hc hslash

/-- A written character is read as a piece that stands for it. -/
theorem pieces?_escape (c : Char) (rest : List Char) :
    ∃ piece, (∀ pieces, text? (piece :: pieces) = (text? pieces).map (c :: ·)) ∧
      pieces? (escape c ++ rest) = (pieces? rest).map fun p => (piece :: p.1, p.2) := by
  have hletter (a b : Char) (hb : b ≠ 'u') (h : escape? b = some a) :
      pieces? ('\\' :: b :: rest) = (pieces? rest).map fun p => (.char a :: p.1, p.2) := by
    rw [pieces?, h]
    · cases pieces? rest <;> rfl
    · exact fun _ _ _ _ _ hu => absurd hu hb
  unfold escape
  split
  · exact ⟨.char '"', text?_char '"', hletter _ _ (by decide) rfl⟩
  · exact ⟨.char '\\', text?_char '\\', hletter _ _ (by decide) rfl⟩
  · exact ⟨.char '\x08', text?_char '\x08', hletter _ _ (by decide) rfl⟩
  · exact ⟨.char '\x0c', text?_char '\x0c', hletter _ _ (by decide) rfl⟩
  · exact ⟨.char '\n', text?_char '\n', hletter _ _ (by decide) rfl⟩
  · exact ⟨.char '\r', text?_char '\r', hletter _ _ (by decide) rfl⟩
  · exact ⟨.char '\t', text?_char '\t', hletter _ _ (by decide) rfl⟩
  · rename_i hquote hslash _ _ _ _ _
    split
    · rename_i h
      refine ⟨.unit c.toNat, text?_unit h, ?_⟩
      simp only [List.cons_append, List.nil_append]
      rw [pieces?, codeUnit?_hexDigit _ h]
      cases pieces? rest <;> rfl
    · rename_i h
      exact ⟨.char c, text?_char c, pieces?_cons hquote hslash h rest⟩

theorem pieces?_flatMap_escape (cs rest : List Char) :
    ∃ pieces, text? pieces = some cs ∧
      pieces? (cs.flatMap escape ++ '"' :: rest) = some (pieces, rest) := by
  induction cs with
  | nil => exact ⟨[], rfl, rfl⟩
  | cons c cs ih =>
    obtain ⟨pieces, htext, hpieces⟩ := ih
    obtain ⟨piece, hpiece, hescape⟩ :=
      pieces?_escape c (cs.flatMap escape ++ '"' :: rest)
    refine ⟨piece :: pieces, ?_, ?_⟩
    · rw [hpiece, htext]
      rfl
    · rw [List.flatMap_cons, List.append_assoc, hescape, hpieces]
      rfl

/-- A string between quotes is read as that string. -/
theorem next?_quote (s : String) (rest : List Char) :
    next? (quote s ++ rest) = some (string (some s), rest) := by
  obtain ⟨pieces, htext, hpieces⟩ := pieces?_flatMap_escape s.toList rest
  rw [quote, List.cons_append, List.append_assoc, List.cons_append, List.nil_append, next?,
    hpieces]
  simp only [Option.map_some, htext, String.ofList_toList]

/-! ## Tokens of a printed value -/

theorem scan_cons_of_next? {c : Char} {cs rest : List Char} {t : Token}
    (hc : Text.isMarkupSpace c = false) (h : next? (c :: cs) = some (t, rest)) :
    scan (c :: cs) = t :: scan rest := by
  rw [scan, if_neg (by simp [hc])]
  split <;> simp_all

theorem scan_lineBreak (layout : Layout) (level : Nat) (cs : List Char) :
    scan (layout.lineBreak level ++ cs) = scan cs := by
  cases layout with
  | compact => rfl
  | indented =>
    have hspaces (n : Nat) : scan (List.replicate n ' ' ++ cs) = scan cs := by
      induction n with
      | zero => rfl
      | succ n ih =>
        rw [List.replicate_succ, List.cons_append, scan, if_pos (by decide), ih]
    rw [Layout.lineBreak, List.cons_append, scan, if_pos (by decide), hspaces]

theorem scan_colon (layout : Layout) (cs : List Char) :
    scan (layout.colon ++ cs) = colon :: scan cs := by
  cases layout with
  | compact => exact scan_cons_of_next? rfl rfl
  | indented =>
    rw [Layout.colon, List.cons_append, List.cons_append, List.nil_append,
      scan_cons_of_next? rfl rfl, scan, if_pos (by decide)]

theorem scan_quote (s : String) (cs : List Char) :
    scan (quote s ++ cs) = string (some s) :: scan cs :=
  scan_cons_of_next? rfl (next?_quote s cs)

end Token

/-! ## Values -/

namespace Value

mutual

/-- Whether a value holds no number at any depth. -/
def numberFree : Value → Bool
  | number _ => false
  | array items => itemsNumberFree items
  | object members => membersNumberFree members
  | _ => true

/-- Whether some items hold no number. -/
def itemsNumberFree : List Value → Bool
  | [] => true
  | item :: rest => item.numberFree && itemsNumberFree rest

/-- Whether some members hold no number. -/
def membersNumberFree : List (String × Value) → Bool
  | [] => true
  | (_, value) :: rest => value.numberFree && membersNumberFree rest

end

mutual

/-- The tree that reading the text of a value builds. -/
def toNode : Value → Node
  | null => .null
  | bool b => .bool b
  | number n => .number (some n)
  | string s => .string (some s)
  | array items => .array (itemsToNodes items)
  | object members => .object (membersToNodes members)

/-- The trees of the items of an array. -/
def itemsToNodes : List Value → List Node
  | [] => []
  | item :: rest => item.toNode :: itemsToNodes rest

/-- The trees of the members of an object. -/
def membersToNodes : List (String × Value) → List Member
  | [] => []
  | (key, value) :: rest => (some key, value.toNode) :: membersToNodes rest

end

mutual

/-- How deep arrays and objects are nested in a value. -/
def depth : Value → Nat
  | array items => itemsDepth items + 1
  | object members => membersDepth members + 1
  | _ => 0

/-- How deep arrays and objects are nested in some items. -/
def itemsDepth : List Value → Nat
  | [] => 0
  | item :: rest => max item.depth (itemsDepth rest)

/-- How deep arrays and objects are nested in some members. -/
def membersDepth : List (String × Value) → Nat
  | [] => 0
  | (_, value) :: rest => max value.depth (membersDepth rest)

end

theorem membersNumberFree_iff {members : List (String × Value)} :
    membersNumberFree members ↔ ∀ e ∈ members, e.2.numberFree := by
  induction members with
  | nil => simp [membersNumberFree]
  | cons e members ih => simp [membersNumberFree, ih]

theorem membersToNodes_eq_map (members : List (String × Value)) :
    membersToNodes members = members.map fun e => (some e.1, e.2.toNode) := by
  induction members with
  | nil => rfl
  | cons e members ih => rw [membersToNodes, ih, List.map_cons]

theorem membersDepth_le_iff {members : List (String × Value)} {n : Nat} :
    membersDepth members ≤ n ↔ ∀ e ∈ members, e.2.depth ≤ n := by
  induction members with
  | nil => simp [membersDepth]
  | cons e members ih => rw [membersDepth, Nat.max_le, ih, List.forall_mem_cons]

/-! ## Reading what was printed -/

/-- A value that stands first in an array is read as it is elsewhere. -/
theorem foldl_scan_first (value : Value) (h : value.numberFree) (layout : Layout) (level : Nat)
    (stack : List Frame) (rest : List Char) :
    (Token.scan (value.render layout level ++ rest)).foldl Reader.step (.firstItem stack) =
      (Token.scan (value.render layout level ++ rest)).foldl Reader.step
        (.value (.array [] :: stack)) := by
  obtain ⟨t, cs, hscan, ht⟩ : ∃ t cs,
      Token.scan (value.render layout level ++ rest) = t :: Token.scan cs ∧
        Reader.step (.firstItem stack) t = Reader.step (.value (.array [] :: stack)) t := by
    cases value with
    | null => exact ⟨_, _, Token.scan_cons_of_next? rfl rfl, rfl⟩
    | bool b =>
      cases b
      · exact ⟨_, _, Token.scan_cons_of_next? rfl rfl, rfl⟩
      · exact ⟨_, _, Token.scan_cons_of_next? rfl rfl, rfl⟩
    | number n => cases h
    | string s => exact ⟨_, _, Token.scan_quote s rest, rfl⟩
    | array items => cases items <;> exact ⟨_, _, Token.scan_cons_of_next? rfl rfl, rfl⟩
    | object members => cases members <;> exact ⟨_, _, Token.scan_cons_of_next? rfl rfl, rfl⟩
  rw [hscan, List.foldl_cons, List.foldl_cons, ht]

mutual

/-- Reading the text of a value puts its tree in its place. -/
theorem foldl_scan_render : ∀ (value : Value), value.numberFree → ∀ (layout : Layout)
    (level : Nat) (stack : List Frame) (rest : List Char),
    (Token.scan (value.render layout level ++ rest)).foldl Reader.step (.value stack) =
      (Token.scan rest).foldl Reader.step (.close value.toNode stack)
  | null, _, _, _, _, _ | bool true, _, _, _, _, _ | bool false, _, _, _, _, _ => by
    simp only [render, List.cons_append, List.nil_append]
    rw [Token.scan_cons_of_next? rfl rfl]
    rfl
  | array [], _, _, _, _, _ | object [], _, _, _, _, _ => by
    simp only [render, List.cons_append, List.nil_append]
    rw [Token.scan_cons_of_next? rfl rfl, Token.scan_cons_of_next? rfl rfl]
    rfl
  | string s, _, layout, level, stack, rest => by
    rw [render, Token.scan_quote]
    rfl
  | array (item :: items), h, layout, level, stack, rest => by
    simp only [numberFree, itemsNumberFree, Bool.and_eq_true] at h
    simp only [render, List.cons_append, List.append_assoc, List.nil_append]
    rw [Token.scan_cons_of_next? rfl rfl, List.foldl_cons]
    change List.foldl Reader.step (.firstItem stack) _ = _
    rw [Token.scan_lineBreak, foldl_scan_first item h.1,
      foldl_scan_render item h.1, Reader.close,
      foldl_scan_renderItems items h.2, Token.scan_lineBreak, Token.scan_cons_of_next? rfl rfl,
      List.foldl_cons]
    change List.foldl Reader.step (.close (.array _) stack) _ = _
    simp [toNode, itemsToNodes]
  | object ((key, value) :: members), h, layout, level, stack, rest => by
    simp only [numberFree, membersNumberFree, Bool.and_eq_true] at h
    simp only [render, List.cons_append, List.append_assoc, List.nil_append]
    rw [Token.scan_cons_of_next? rfl rfl, List.foldl_cons, Token.scan_lineBreak, Token.scan_quote,
      List.foldl_cons, Token.scan_colon, List.foldl_cons]
    change List.foldl Reader.step (.value (.object [] (some key) :: stack)) _ = _
    rw [foldl_scan_render value h.1, Reader.close,
      foldl_scan_renderMembers members h.2, Token.scan_lineBreak, Token.scan_cons_of_next? rfl rfl,
      List.foldl_cons]
    change List.foldl Reader.step (.close (.object _) stack) _ = _
    simp [toNode, membersToNodes]

theorem foldl_scan_renderItems : ∀ (items : List Value), itemsNumberFree items →
    ∀ (layout : Layout) (level : Nat) (before : List Node) (stack : List Frame)
      (rest : List Char),
    (Token.scan (renderItems layout level items ++ rest)).foldl Reader.step
        (.afterItem before stack) =
      (Token.scan rest).foldl Reader.step
        (.afterItem ((itemsToNodes items).reverse ++ before) stack)
  | [], _, _, _, _, _, _ => rfl
  | item :: items, h, layout, level, before, stack, rest => by
    simp only [itemsNumberFree, Bool.and_eq_true] at h
    simp only [renderItems, List.cons_append, List.append_assoc]
    rw [Token.scan_cons_of_next? rfl rfl, List.foldl_cons]
    change List.foldl Reader.step (.value (.array before :: stack)) _ = _
    rw [Token.scan_lineBreak, foldl_scan_render item h.1, Reader.close,
      foldl_scan_renderItems items h.2]
    simp [itemsToNodes]

theorem foldl_scan_renderMembers : ∀ (members : List (String × Value)), membersNumberFree members →
    ∀ (layout : Layout) (level : Nat) (before : List Member) (stack : List Frame)
      (rest : List Char),
    (Token.scan (renderMembers layout level members ++ rest)).foldl Reader.step
        (.afterMember before stack) =
      (Token.scan rest).foldl Reader.step
        (.afterMember ((membersToNodes members).reverse ++ before) stack)
  | [], _, _, _, _, _, _ => rfl
  | (key, value) :: members, h, layout, level, before, stack, rest => by
    simp only [membersNumberFree, Bool.and_eq_true] at h
    simp only [renderMembers, List.cons_append, List.append_assoc]
    rw [Token.scan_cons_of_next? rfl rfl, List.foldl_cons, Token.scan_lineBreak, Token.scan_quote,
      List.foldl_cons, Token.scan_colon, List.foldl_cons]
    change List.foldl Reader.step (.value (.object before (some key) :: stack)) _ = _
    rw [foldl_scan_render value h.1, Reader.close, foldl_scan_renderMembers members h.2]
    simp [membersToNodes]

end

/-- **Reading the text of a value gives its tree**, in both layouts. -/
theorem read_text {value : Value} (h : value.numberFree) (layout : Layout) :
    Document.read (value.text layout).toList = ⟨value.toNode, true⟩ := by
  have hread := foldl_scan_render value h layout 0 [] []
  rw [List.append_nil] at hread
  rw [text, String.toList_ofList, Document.read, hread, Token.scan]
  rfl

theorem decodeText_text {α : Type} {value : Value} (h : value.numberFree) (layout : Layout)
    (decoder : Node → Decoded α) :
    decodeText decoder (value.text layout) = decoder value.toNode := by
  rw [decodeText, read_text h, Document.decode]
  cases decoder value.toNode <;> rfl

mutual

theorem ofNode_toNode : ∀ (value : Value) (n : Nat), value.depth ≤ n →
    ofNode n value.toNode = .ok value
  | null, _, _ | bool _, _, _ | number _, _, _ | string _, _, _ => by
    simp only [toNode, ofNode]
  | array items, 0, h | object members, 0, h => by
    simp [depth] at h
  | array items, n + 1, h => by
    rw [depth, Nat.add_le_add_iff_right] at h
    rw [toNode, ofNode, ofItems_itemsToNodes items n h]
    rfl
  | object members, n + 1, h => by
    rw [depth, Nat.add_le_add_iff_right] at h
    rw [toNode, ofNode, ofMembers_membersToNodes members n h]
    rfl

theorem ofItems_itemsToNodes : ∀ (items : List Value) (n : Nat), itemsDepth items ≤ n →
    ofItems n (itemsToNodes items) = .ok items
  | [], _, _ => rfl
  | item :: items, n, h => by
    rw [itemsDepth, Nat.max_le] at h
    rw [itemsToNodes, ofItems, ofNode_toNode item n h.1, ofItems_itemsToNodes items n h.2]
    rfl

theorem ofMembers_membersToNodes : ∀ (members : List (String × Value)) (n : Nat),
    membersDepth members ≤ n → ofMembers n (membersToNodes members) = .ok members
  | [], _, _ => rfl
  | (key, value) :: members, n, h => by
    rw [membersDepth, Nat.max_le] at h
    rw [membersToNodes, ofMembers, ofNode_toNode value n h.1,
      ofMembers_membersToNodes members n h.2]
    rfl

end

/-- **Printing a value and reading it gives the value**, if it is not nested too deep. -/
theorem ofText_text {value : Value} (h : value.numberFree) (hdepth : value.depth ≤ Node.maxDepth)
    (layout : Layout) : ofText (value.text layout) = .ok value := by
  rw [ofText, decodeText_text h, ofNode_toNode value Node.maxDepth hdepth]

end Value

end TrafficSchema.Json
