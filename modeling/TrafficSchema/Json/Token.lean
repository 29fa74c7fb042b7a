import TrafficSchema.Json.Value
import TrafficSchema.Text.Blank

/-!
# JSON tokens

`Token.scan` cuts a JSON text into tokens. Where no token can be read the list ends with
`Token.bad`. Two faults do not end it, because they matter only to those who look at the token:
a string may hold half of a surrogate pair, and a number may be out of the range of doubles.
-/

namespace TrafficSchema.Json

/-- A token of a JSON text. -/
inductive Token
  | openObject
  | closeObject
  | openArray
  | closeArray
  | comma
  | colon
  | null
  | bool (b : Bool)
  /-- A number, absent if it is out of range. -/
  | number (n : Option Number)
  /-- A string, absent if it holds half of a surrogate pair. -/
  | string (s : Option String)
  /-- What follows is no token. -/
  | bad

namespace Token

/-! ## Strings -/

/-- A piece of a string: a character, or a code unit written `\u` and four digits. -/
inductive Piece
  | char (c : Char)
  | unit (n : Nat)

/-- The value of a hexadecimal digit. -/
def hexDigit? (c : Char) : Option Nat :=
  if c.isDigit then some (c.toNat - '0'.toNat)
  else if 'a' ≤ c ∧ c ≤ 'f' then some (c.toNat - 'a'.toNat + 10)
  else if 'A' ≤ c ∧ c ≤ 'F' then some (c.toNat - 'A'.toNat + 10)
  else none

/-- The code unit that four hexadecimal digits stand for. -/
def codeUnit? (a b c d : Char) : Option Nat := do
  return ((← hexDigit? a) * 16 + (← hexDigit? b)) * 256 + ((← hexDigit? c) * 16 + (← hexDigit? d))

/-- The character that a backslash and a letter stand for. -/
def escape? (c : Char) : Option Char :=
  match c with
  | '"' => some '"'
  | '\\' => some '\\'
  | '/' => some '/'
  | 'b' => some '\x08'
  | 'f' => some '\x0c'
  | 'n' => some '\n'
  | 'r' => some '\r'
  | 't' => some '\t'
  | _ => none

/-- The pieces of a string whose opening quote has been read, and what follows the closing
one. -/
def pieces? : List Char → Option (List Piece × List Char)
  | [] => none
  | '"' :: rest => some ([], rest)
  | '\\' :: 'u' :: a :: b :: c :: d :: rest =>
    match codeUnit? a b c d, pieces? rest with
    | some n, some (pieces, rest) => some (.unit n :: pieces, rest)
    | _, _ => none
  | '\\' :: c :: rest =>
    match escape? c, pieces? rest with
    | some c, some (pieces, rest) => some (.char c :: pieces, rest)
    | _, _ => none
  | c :: rest =>
    if c.toNat < 0x20 ∨ c = '\\' then none
    else match pieces? rest with
      | some (pieces, rest) => some (.char c :: pieces, rest)
      | none => none

/-- Whether a code unit is the first half of a surrogate pair. -/
def isHighSurrogate (n : Nat) : Bool := 0xD800 ≤ n && n < 0xDC00

/-- Whether a code unit is the second half of a surrogate pair. -/
def isLowSurrogate (n : Nat) : Bool := 0xDC00 ≤ n && n < 0xE000

/-- The text of a string, unless it holds half of a surrogate pair. -/
def text? : List Piece → Option (List Char)
  | [] => some []
  | .char c :: rest => (text? rest).map (c :: ·)
  | .unit n :: rest =>
    if isHighSurrogate n then
      match rest with
      | .unit m :: rest =>
        if isLowSurrogate m then
          (text? rest).map (Char.ofNat (0x10000 + (n - 0xD800) * 0x400 + (m - 0xDC00)) :: ·)
        else none
      | _ => none
    else if isLowSurrogate n then none
    else (text? rest).map (Char.ofNat n :: ·)

/-! ## Numbers -/

/-- The fraction at the front of a text, if there is a point, and what follows. -/
def fraction? : List Char → Option (Option (List Char) × List Char)
  | '.' :: rest =>
    let (digits, rest) := Numeral.splitDigits rest
    if digits = [] then none else some (some digits, rest)
  | cs => some (none, cs)

/-- The exponent at the front of a text, if there is an `e`, and what follows. -/
def exponent? : List Char → Option (Option Int × List Char)
  | [] => some (none, [])
  | c :: rest =>
    if c = 'e' ∨ c = 'E' then
      let (negative, rest) := Numeral.splitSign rest
      let (digits, rest) := Numeral.splitDigits rest
      if digits = [] then none
      else
        let n : Int := digitsValue digits
        some (some (if negative then -n else n), rest)
    else some (none, c :: rest)

/-- The numeral at the front of a text, in the narrower form that JSON admits: no `+` in front,
no needless leading zero, digits on both sides of a point. -/
def numeral? (cs : List Char) : Option (Numeral × List Char) :=
  let (negative, cs) := match cs with
    | '-' :: rest => (true, rest)
    | _ => (false, cs)
  let (whole, cs) := Numeral.splitDigits cs
  if whole = [] ∨ (whole.head? = some '0' ∧ whole ≠ ['0']) then none
  else match fraction? cs with
    | none => none
    | some (fraction, cs) =>
      match exponent? cs with
      | none => none
      | some (exponent, cs) => some (⟨negative, whole, fraction, exponent⟩, cs)

/-! ## Tokens -/

/-- The token at the front of a text that does not start with white space, and what follows. -/
def next? : List Char → Option (Token × List Char)
  | [] => none
  | '{' :: rest => some (openObject, rest)
  | '}' :: rest => some (closeObject, rest)
  | '[' :: rest => some (openArray, rest)
  | ']' :: rest => some (closeArray, rest)
  | ',' :: rest => some (comma, rest)
  | ':' :: rest => some (colon, rest)
  | 'n' :: 'u' :: 'l' :: 'l' :: rest => some (null, rest)
  | 't' :: 'r' :: 'u' :: 'e' :: rest => some (bool true, rest)
  | 'f' :: 'a' :: 'l' :: 's' :: 'e' :: rest => some (bool false, rest)
  | '"' :: rest => (pieces? rest).map fun (pieces, rest) =>
    (string ((text? pieces).map String.ofList), rest)
  | cs => (numeral? cs).map fun (n, rest) => (number (Number.ofNumeral? n), rest)

/-! ## Progress -/

theorem length_pieces? {cs rest : List Char} {ps : List Piece} (h : pieces? cs = some (ps, rest)) :
    rest.length < cs.length := by
  fun_induction pieces? cs generalizing ps rest <;> try simp only [List.length_cons]
  all_goals grind

theorem length_splitDigits (cs : List Char) :
    (Numeral.splitDigits cs).1.length + (Numeral.splitDigits cs).2.length = cs.length := by
  rw [Numeral.splitDigits, ← List.length_append, List.takeWhile_append_dropWhile]

theorem length_splitSign (cs : List Char) : (Numeral.splitSign cs).2.length ≤ cs.length := by
  unfold Numeral.splitSign
  split <;> simp

theorem length_fraction? {cs rest : List Char} {f : Option (List Char)}
    (h : fraction? cs = some (f, rest)) : rest.length ≤ cs.length := by
  unfold fraction? at h
  split at h
  · rename_i cs'
    have := length_splitDigits cs'
    simp only [Option.ite_none_left_eq_some] at h
    simp only [List.length_cons]
    grind
  · simp_all

theorem length_exponent? {cs rest : List Char} {e : Option Int}
    (h : exponent? cs = some (e, rest)) : rest.length ≤ cs.length := by
  unfold exponent? at h
  split at h
  · simp_all
  · rename_i c cs'
    split at h
    · have h₁ := length_splitSign cs'
      have h₂ := length_splitDigits (Numeral.splitSign cs').2
      simp only [Option.ite_none_left_eq_some] at h
      simp only [List.length_cons]
      grind
    · simp_all

theorem length_numeral? {cs rest : List Char} {n : Numeral}
    (h : numeral? cs = some (n, rest)) : rest.length < cs.length := by
  have key (negative : Bool) (body : List Char) (hb : body.length ≤ cs.length)
      (h : (if (Numeral.splitDigits body).1 = [] ∨
          ((Numeral.splitDigits body).1.head? = some '0' ∧ (Numeral.splitDigits body).1 ≠ ['0'])
        then none
        else match fraction? (Numeral.splitDigits body).2 with
          | none => none
          | some (fraction, cs) =>
            match exponent? cs with
            | none => none
            | some (exponent, cs) =>
              some ((⟨negative, (Numeral.splitDigits body).1, fraction, exponent⟩ : Numeral),
                cs)) = some (n, rest)) : rest.length < cs.length := by
    have hd := length_splitDigits body
    split at h
    · simp at h
    · rename_i hw
      have hpos : 0 < (Numeral.splitDigits body).1.length :=
        List.length_pos_iff.2 fun hnil => hw (.inl hnil)
      split at h
      · simp at h
      · rename_i hf
        have := length_fraction? hf
        split at h
        · simp at h
        · rename_i he
          have := length_exponent? he
          simp only [Option.some.injEq, Prod.mk.injEq] at h
          grind
  unfold numeral? at h
  split at h
  rename_i negative body hsign
  refine key negative body ?_ h
  grind

theorem length_next? {cs rest : List Char} {t : Token} (h : next? cs = some (t, rest)) :
    rest.length < cs.length := by
  unfold next? at h
  split at h
  case h_11 =>
    simp only [Option.map_eq_some_iff, Prod.exists, Prod.mk.injEq] at h
    obtain ⟨_, _, hp, -, rfl⟩ := h
    have := length_pieces? hp
    simp only [List.length_cons]
    omega
  case h_12 =>
    simp only [Option.map_eq_some_iff, Prod.exists, Prod.mk.injEq] at h
    obtain ⟨_, _, hn, -, rfl⟩ := h
    exact length_numeral? hn
  all_goals grind

/-- The tokens of a text. -/
def scan (cs : List Char) : List Token :=
  match cs with
  | [] => []
  | c :: rest =>
    if Text.isMarkupSpace c then scan rest
    else match h : next? (c :: rest) with
      | none => [bad]
      | some (t, rest') =>
        have := length_next? h
        t :: scan rest'
termination_by cs.length
decreasing_by
  · exact Nat.lt_succ_self _
  · exact this

end Token

end TrafficSchema.Json
