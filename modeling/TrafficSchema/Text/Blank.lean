/-!
# Blank characters

Two notions of white space are in use. `isBlank` is the Unicode property `White_Space`, which
decides where values are trimmed and where names are cut into words. `isMarkupSpace` is the set
of four characters that separates tokens in XML and JSON.

A text without blanks is what is left when the blanks around it are trimmed (`Text.trim_append`).
-/

namespace TrafficSchema.Text

/-- The characters with the Unicode property `White_Space`. -/
def isBlank (c : Char) : Bool :=
  let n := c.toNat
  (9 ≤ n && n ≤ 13) || n == 0x20 || n == 0x85 || n == 0xA0 || n == 0x1680 ||
    (0x2000 ≤ n && n ≤ 0x200A) || n == 0x2028 || n == 0x2029 || n == 0x202F || n == 0x205F ||
    n == 0x3000

theorem not_isBlank_of_isDigit {c : Char} (h : c.isDigit) : ¬ isBlank c := by
  have hc := Char.isDigit_iff_toNat.1 h
  have hzero : '0'.toNat = 48 := rfl
  have hnine : '9'.toNat = 57 := rfl
  simp only [isBlank, Bool.or_eq_true, Bool.and_eq_true, beq_iff_eq, decide_eq_true_eq]
  omega

/-- Space, tab, line feed and carriage return. -/
def isMarkupSpace (c : Char) : Bool := c == ' ' || c == '\t' || c == '\n' || c == '\r'

/-! ## Runs of characters -/

theorem length_of_dropWhile {p : Char → Bool} {cs rest : List Char} {c : Char}
    (h : cs.dropWhile p = c :: rest) : rest.length < cs.length := by
  have := (List.dropWhile_sublist p (l := cs)).length_le
  simp only [h, List.length_cons] at this
  omega

/-- Where the characters of a text that pass a test end, the text is cut. -/
theorem span_append (p : Char → Bool) {cs : List Char} (rest : List Char) (hcs : ∀ c ∈ cs, p c)
    (hrest : ∀ c ∈ rest.head?, ¬ p c) :
    (cs ++ rest).takeWhile p = cs ∧ (cs ++ rest).dropWhile p = rest := by
  rw [List.takeWhile_append_of_pos hcs, List.dropWhile_append_of_pos hcs]
  cases rest with
  | nil => simp
  | cons c rest =>
    have hc : ¬ p c := hrest c rfl
    simp [hc]

/-! ## Trimming -/

/-- Drops characters from the end of a text as long as they pass a test. -/
def dropEndWhile (p : Char → Bool) (cs : List Char) : List Char :=
  (cs.reverse.dropWhile p).reverse

/-- The text without the blanks around it. -/
def trim (cs : List Char) : List Char := dropEndWhile isBlank (cs.dropWhile isBlank)

/-- Blanks are trimmed from around a text that has none itself. -/
theorem trim_append {before cs after : List Char} (hbefore : ∀ c ∈ before, isBlank c)
    (hcs : ∀ c ∈ cs, ¬ isBlank c) (hafter : ∀ c ∈ after, isBlank c) :
    trim (before ++ cs ++ after) = cs := by
  cases cs with
  | nil =>
    -- nothing but blanks
    have hspan := span_append isBlank [] hafter (by simp)
    rw [List.append_nil] at hspan
    rw [trim, List.append_nil, List.dropWhile_append_of_pos hbefore, hspan.2]
    rfl
  | cons c cs =>
    -- the text begins and ends with a character that is no blank
    have hfront := span_append isBlank (c :: cs ++ after) hbefore <| by
      simpa using hcs c List.mem_cons_self
    have hback := span_append isBlank (c :: cs).reverse
      (fun d hd => hafter d (List.mem_reverse.1 hd))
      fun d hd => hcs d (List.mem_reverse.1 (List.mem_of_mem_head? hd))
    rw [trim, dropEndWhile, List.append_assoc, hfront.2, List.reverse_append, hback.2,
      List.reverse_reverse]

/-! ## Words -/

/-- The non-empty pieces of a text between characters that pass a test. -/
def wordsBy (p : Char → Bool) (cs : List Char) : List (List Char) :=
  (cs.splitOnP p).filter (· ≠ [])

/-- The non-empty pieces of a text between blanks. -/
def words (cs : List Char) : List (List Char) := wordsBy isBlank cs

end TrafficSchema.Text
