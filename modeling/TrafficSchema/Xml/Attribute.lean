import TrafficSchema.Text.Blank

/-!
# Attributes

Behind the name of a start tag its attributes follow, `name="value"` or `name='value'`, with
white space anywhere between the parts. `Attribute.read` lists them up to the first that is not
well formed. References to characters and to the five predefined entities are resolved in the
value (`Attribute.resolve?`).
-/

namespace TrafficSchema.Xml

/-- What is found where an attribute should stand. -/
inductive Attribute
  | pair (name value : String)
  /-- An attribute whose value holds something that is no reference behind an `&`. -/
  | badValue
  /-- No attribute, or a second one with a name that occurred before. -/
  | malformed
  deriving DecidableEq

namespace Attribute

/-! ## References -/

/-- The character that an entity name stands for. -/
def entity? (name : List Char) : Option Char :=
  if name = ['l', 't'] then some '<'
  else if name = ['g', 't'] then some '>'
  else if name = ['a', 'm', 'p'] then some '&'
  else if name = ['a', 'p', 'o', 's'] then some '\''
  else if name = ['q', 'u', 'o', 't'] then some '"'
  else none

/-- The value of a digit in a base up to sixteen. -/
def digit? (base : Nat) (c : Char) : Option Nat :=
  let n :=
    if c.isDigit then c.toNat - '0'.toNat
    else if 'a' ≤ c ∧ c ≤ 'f' then c.toNat - 'a'.toNat + 10
    else if 'A' ≤ c ∧ c ≤ 'F' then c.toNat - 'A'.toNat + 10
    else base
  if n < base then some n else none

/-- The number that digits in a base stand for; there has to be one. -/
def number? (base : Nat) (digits : List Char) : Option Nat :=
  if digits = [] then none
  else digits.foldlM (fun n c => (digit? base c).map (base * n + ·)) 0

/-- The character with a number: any scalar value but zero. -/
def character? (n : Nat) : Option Char :=
  if n ≠ 0 ∧ n.isValidChar then some (Char.ofNat n) else none

/-- The character that stands for what is written between `&` and `;`. -/
def reference? : List Char → Option Char
  | '#' :: 'x' :: digits => number? 16 digits >>= character?
  | '#' :: digits => number? 10 digits >>= character?
  | name => entity? name

/-- The text in which all references of a value are resolved. The list `name` holds, in reverse
order, what has been read of a reference. -/
def resolveFrom? : Option (List Char) → List Char → Option (List Char)
  | none, [] => some []
  | none, '&' :: rest => resolveFrom? (some []) rest
  | none, c :: rest => (resolveFrom? none rest).map (c :: ·)
  | some _, [] => none
  | some _, '&' :: _ => none
  | some name, ';' :: rest =>
    match reference? name.reverse, resolveFrom? none rest with
    | some c, some text => some (c :: text)
    | _, _ => none
  | some name, c :: rest => resolveFrom? (some (c :: name)) rest

/-- The text in which all references of a value are resolved. -/
def resolve? (value : List Char) : Option (List Char) := resolveFrom? none value

/-! ## Attribute lists -/

/-- Cuts a text in front of the first character that passes a test. -/
def breakAt (p : Char → Bool) (cs : List Char) : List Char × List Char :=
  (cs.takeWhile (!p ·), cs.dropWhile (!p ·))

/-- The parts of an attribute whose name starts with the given character, and what follows:
the name, and the value if one follows. -/
def split? (c : Char) (cs : List Char) : Option (List Char × Option (List Char × List Char)) :=
  let (tail, cs) := breakAt (fun c => c = '=' || Text.isMarkupSpace c) cs
  match cs.dropWhile Text.isMarkupSpace with
  | '=' :: cs =>
    let value := match cs.dropWhile Text.isMarkupSpace with
      | quote :: cs =>
        if quote = '"' ∨ quote = '\'' then
          match breakAt (· = quote) cs with
          | (value, _ :: rest) => some (value, rest)
          | _ => none
        else none
      | [] => none
    some (c :: tail, value)
  | _ => none

theorem length_breakAt (p : Char → Bool) (cs : List Char) :
    (breakAt p cs).2.length ≤ cs.length :=
  (List.dropWhile_sublist _).length_le

theorem length_split? {c : Char} {cs name value rest : List Char}
    (h : split? c cs = some (name, some (value, rest))) : rest.length < cs.length := by
  have skip (l : List Char) : (l.dropWhile Text.isMarkupSpace).length ≤ l.length :=
    (List.dropWhile_sublist _).length_le
  simp only [split?] at h
  have h₁ := length_breakAt (fun c => c = '=' || Text.isMarkupSpace c) cs
  generalize breakAt (fun c => c = '=' || Text.isMarkupSpace c) cs = broken at h h₁
  obtain ⟨tail, cs₁⟩ := broken
  have h₂ := skip cs₁
  simp only at h h₁
  split at h
  · rename_i cs₂ heq
    rw [heq] at h₂
    have h₃ := skip cs₂
    simp only [Option.some.injEq, Prod.mk.injEq] at h
    obtain ⟨-, h⟩ := h
    split at h
    · rename_i quote cs₃ heq
      rw [heq] at h₃
      split at h
      · have h₄ := length_breakAt (· = quote) cs₃
        split at h
        · rename_i value' q rest' heq
          rw [heq] at h₄
          simp only [Option.some.injEq, Prod.mk.injEq] at h
          simp only [List.length_cons] at *
          grind
        · simp at h
      · simp at h
    · simp at h
  · simp at h

/-- The attributes in a text, given the names of those in front of it. -/
def readAfter (cs : List Char) (names : List (List Char)) : List Attribute :=
  match h : cs.dropWhile Text.isMarkupSpace with
  | [] => []
  | c :: cs' =>
    match h' : split? c cs' with
    | some (name, some (value, rest)) =>
      have := Nat.lt_trans (length_split? h') (Text.length_of_dropWhile h)
      if name ∈ names then [malformed]
      else match resolve? value with
        | none => [badValue]
        | some value =>
          pair (String.ofList name) (String.ofList value) :: readAfter rest (name :: names)
    | _ => [malformed]
termination_by cs.length

/-- The attributes in the text behind the name of a start tag. -/
def read (cs : List Char) : List Attribute := readAfter cs []

end Attribute

end TrafficSchema.Xml
