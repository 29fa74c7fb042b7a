import TrafficSchema.Json.Node
import TrafficSchema.Proofs.Except

/-!
# How the text of a structured value begins

The automaton that reads a JSON text has the whole value in hand as soon as its first token is a
scalar, and whatever follows does not change the value (`Reader.root_foldl_step_done`). So the text
of an array or an object has a token in front that opens one (`Document.opens_of_isStructured`),
and its first character that is no white space is a bracket or a brace
(`Value.opening_of_ofText`).
-/

namespace TrafficSchema.Json

/-! ## The first token -/

/-- Whether a node is an array or an object. -/
def Node.isStructured : Node → Bool
  | array _ | object _ => true
  | _ => false

/-- Whether a token opens an array or an object. -/
def Token.opens : Token → Bool
  | openArray | openObject => true
  | _ => false

namespace Reader

theorem foldl_step_failed (tokens : List Token) (document : Document) :
    tokens.foldl step (failed document) = failed document := by
  induction tokens with
  | nil => rfl
  | cons token tokens ih => exact ih

/-- A complete value stays what it is, whatever follows. -/
theorem root_foldl_step_done (tokens : List Token) (node : Node) :
    (tokens.foldl step (done node)).finish.root = node := by
  cases tokens with
  | nil => rfl
  | cons token tokens =>
    have hstep : step (done node) token = failed ⟨node, false⟩ := rfl
    rw [List.foldl_cons, hstep, foldl_step_failed]
    rfl

end Reader

/-- An array or an object is opened by the first token. -/
theorem Document.opens_of_isStructured {cs : List Char}
    (h : (Document.read cs).root.isStructured) :
    ∃ token tokens, Token.scan cs = token :: tokens ∧ token.opens := by
  unfold Document.read at h
  cases hscan : Token.scan cs with
  | nil =>
    rw [hscan] at h
    cases h
  | cons token tokens =>
    refine ⟨token, tokens, rfl, ?_⟩
    rw [hscan, List.foldl_cons] at h
    -- any other token is the whole value, or is wrong
    have hscalar (node : Node) (hnode : node.isStructured = false)
        (hstep : Reader.step (.value []) token = .done node) : token.opens := by
      rw [hstep, Reader.root_foldl_step_done, hnode] at h
      cases h
    have hwrong (document : Document) (hdocument : document.root.isStructured = false)
        (hstep : Reader.step (.value []) token = .failed document) : token.opens := by
      rw [hstep, Reader.foldl_step_failed] at h
      change document.root.isStructured = true at h
      rw [hdocument] at h
      cases h
    cases token with
    | openObject | openArray => rfl
    | null => exact hscalar .null rfl rfl
    | bool b => exact hscalar (.bool b) rfl rfl
    | number n => exact hscalar (.number n) rfl rfl
    | string s => exact hscalar (.string s) rfl rfl
    | closeObject | closeArray | comma | colon | bad => exact hwrong ⟨.broken, false⟩ rfl rfl

/-! ## The first character -/

namespace Token

theorem opening_of_next? {cs rest : List Char} {token : Token}
    (h : next? cs = some (token, rest)) (hopens : token.opens) :
    ∃ c, cs = c :: rest ∧ (c = '{' ∨ c = '[') := by
  unfold next? at h
  split at h
  case h_2 =>
    cases h
    exact ⟨'{', rfl, .inl rfl⟩
  case h_4 =>
    cases h
    exact ⟨'[', rfl, .inr rfl⟩
  case h_11 | h_12 =>
    obtain ⟨p, -, hp⟩ := Option.map_eq_some_iff.1 h
    cases hp
    cases hopens
  all_goals
    cases h
    try cases hopens

/-- A text whose first token opens an array or an object begins with a bracket or a brace, but for
white space. -/
theorem opening_of_scan {cs : List Char} {token : Token} {tokens : List Token}
    (h : scan cs = token :: tokens) (hopens : token.opens) :
    ∃ c rest, cs.dropWhile Text.isMarkupSpace = c :: rest ∧ (c = '{' ∨ c = '[') := by
  induction cs with
  | nil =>
    rw [scan] at h
    cases h
  | cons c cs ih =>
    rw [scan] at h
    split at h
    · rename_i hspace
      rw [List.dropWhile_cons, if_pos hspace]
      exact ih h
    · rename_i hspace
      rw [List.dropWhile_cons, if_neg hspace]
      split at h
      · cases h
        cases hopens
      · rename_i first rest hnext
        cases h
        obtain ⟨d, hd, hbracket⟩ := opening_of_next? hnext hopens
        cases hd
        exact ⟨c, cs, rfl, hbracket⟩

end Token

namespace Value

/-- Whether a value is an array or an object. -/
def isStructured : Value → Bool
  | array _ | object _ => true
  | _ => false

theorem isStructured_of_ofNode {depth : Nat} {node : Node} {value : Value}
    (h : ofNode depth node = .ok value) (hvalue : value.isStructured) : node.isStructured := by
  cases node with
  | array items | object members => rfl
  | null | bool b =>
    cases h
    exact hvalue
  | number n =>
    cases n <;> cases h
    exact hvalue
  | string s =>
    cases s <;> cases h
    exact hvalue
  | broken => cases h

/-- **The text of an array or an object begins with a bracket or a brace**, but for white space. -/
theorem opening_of_ofText {text : String} {value : Value} (h : ofText text = .ok value)
    (hvalue : value.isStructured) :
    ∃ c rest, text.toList.dropWhile Text.isMarkupSpace = c :: rest ∧ (c = '{' ∨ c = '[') := by
  obtain ⟨value', hroot, h⟩ := bind_eq_ok_iff.1 h
  split at h
  · cases h
    have hstructured := isStructured_of_ofNode hroot hvalue
    obtain ⟨token, tokens, hscan, hopens⟩ := Document.opens_of_isStructured hstructured
    exact Token.opening_of_scan hscan hopens
  · cases h

end Value

end TrafficSchema.Json
