import TrafficSchema.Proofs.Scalar.Double
import TrafficSchema.Text.Blank

/-!
# Numerals as they are written

A `Numeral.Spelling` is a numeral with all the freedom of writing it: a sign or none, zeros in
front, a point in any place or none, an exponent of any length or none. It has a text and it stands
for a rational number.

The text of a spelling is read as its parts (`Numeral.read?_text`). It has the form of an integer
just if there is neither a point nor an exponent (`Numeral.hasIntegerForm_text`), and always the
form of a decimal number (`Numeral.hasDecimalForm_text`). What is read overflows just if the number
is beyond the range of doubles (`Numeral.overflows_iff`).
-/

namespace TrafficSchema

/-! ## Digits -/

theorem digitsValue_eq (ds : List Char) : digitsValue ds = Nat.ofDigitChars 10 ds 0 := rfl

theorem digitsValue_append (ds es : List Char) :
    digitsValue (ds ++ es) = digitsValue ds * 10 ^ es.length + digitsValue es := by
  induction es using List.reverseRecOn with
  | nil => simp [digitsValue]
  | append_singleton es c ih =>
    rw [← List.append_assoc]
    simp only [digitsValue, List.foldl_append, List.foldl_cons, List.foldl_nil, List.length_append,
      List.length_cons, List.length_nil, pow_succ] at ih ⊢
    rw [ih]
    ring

theorem digitsValue_lt {ds : List Char} (h : ∀ c ∈ ds, c.isDigit) :
    digitsValue ds < 10 ^ ds.length := by
  induction ds using List.reverseRecOn with
  | nil => simp [digitsValue]
  | append_singleton ds c ih =>
    have hc := Char.isDigit_iff_toNat.1 (h c (by simp))
    have hds := ih fun d hd => h d (by simp [hd])
    have hvalue : digitsValue [c] < 10 := by
      simp only [digitsValue, List.foldl_cons, List.foldl_nil]
      have : '9'.toNat = '0'.toNat + 9 := rfl
      omega
    rw [digitsValue_append, List.length_append, pow_add]
    simp only [List.length_cons, List.length_nil]
    omega

theorem isDecimalDigit_of_isDigit {c : Char} (h : c.isDigit) : Text.isDecimalDigit c := by
  have hc := Char.isDigit_iff_toNat.1 h
  simp only [Text.isDecimalDigit, List.any_eq_true]
  exact ⟨(0x30, 0x39), by decide, by simpa using hc⟩

namespace Numeral

/-! ## Spellings -/

/-- A sign that is written, or none. -/
inductive Sign
  | none
  | plus
  | minus
  deriving DecidableEq

namespace Sign

/-- How the sign is written. -/
def text : Sign → List Char
  | none => []
  | plus => ['+']
  | minus => ['-']

/-- What the sign multiplies a number by. -/
def factor : Sign → ℤ
  | minus => -1
  | _ => 1

end Sign

/-- An exponent: `e` or `E`, a sign and digits. -/
structure Power where
  letter : Char
  sign : Sign
  digits : List Char
  isLetter : letter = 'e' ∨ letter = 'E'
  ne_nil : digits ≠ []
  isDigit : ∀ c ∈ digits, c.isDigit

namespace Power

def text (p : Power) : List Char := p.letter :: (p.sign.text ++ p.digits)

def value (p : Power) : ℤ := p.sign.factor * Nat.ofDigitChars 10 p.digits 0

end Power

/-- A numeral as it is written: a sign, digits, a point and more digits, and an exponent. Only one
side of the point needs digits. -/
structure Spelling where
  sign : Sign
  whole : List Char
  fraction : Option (List Char)
  power : Option Power
  ne_nil : whole ++ fraction.getD [] ≠ []
  isDigit : ∀ c ∈ whole ++ fraction.getD [], c.isDigit

namespace Spelling

/-- How the exponent is written, if there is one. -/
def powerText (s : Spelling) : List Char := (s.power.map Power.text).getD []

/-- How the point and what follows it is written. -/
def tailText (s : Spelling) : List Char :=
  match s.fraction with
  | none => s.powerText
  | some ds => '.' :: (ds ++ s.powerText)

def text (s : Spelling) : List Char := s.sign.text ++ (s.whole ++ s.tailText)

/-- The number that is meant. -/
def value (s : Spelling) : ℚ :=
  let fraction := s.fraction.getD []
  s.sign.factor *
    (Nat.ofDigitChars 10 s.whole 0 + Nat.ofDigitChars 10 fraction 0 / 10 ^ fraction.length) *
    10 ^ (s.power.map Power.value).getD 0

/-- A numeral with neither a point nor an exponent. -/
def IsPlain (s : Spelling) : Prop := s.fraction = none ∧ s.power = none

theorem text_ne_nil (s : Spelling) : s.text ≠ [] := by
  intro h
  simp only [text, List.append_eq_nil_iff] at h
  obtain ⟨-, hwhole, htail⟩ := h
  have hne := s.ne_nil
  unfold tailText at htail
  split at htail
  · rename_i hfraction
    simp [hwhole, hfraction] at hne
  · cases htail

/-- The numeral that the text is read as. -/
def numeral (s : Spelling) : Numeral :=
  ⟨s.sign = .minus, s.whole, s.fraction, s.power.map Power.value⟩

end Spelling

/-! ## Cutting -/

theorem splitSign_text (sign : Sign) {cs : List Char}
    (hcs : ∀ c ∈ cs.head?, c ≠ '+' ∧ c ≠ '-') :
    splitSign (sign.text ++ cs) = (decide (sign = .minus), cs) := by
  cases sign with
  | plus => rfl
  | minus => rfl
  | none =>
    rw [Sign.text, List.nil_append]
    cases cs with
    | nil => rfl
    | cons c cs =>
      obtain ⟨hplus, hminus⟩ := hcs c rfl
      unfold splitSign
      split
      · simp_all
      · simp_all
      · rfl

theorem not_sign_of_isDigit {c : Char} (h : c.isDigit) : c ≠ '+' ∧ c ≠ '-' := by
  constructor
  · rintro rfl
    cases h
  · rintro rfl
    cases h

theorem splitSign_digits (sign : Sign) {ds : List Char} (hds : ∀ c ∈ ds, c.isDigit) :
    splitSign (sign.text ++ ds) = (decide (sign = .minus), ds) :=
  splitSign_text sign fun c hc => not_sign_of_isDigit (hds c (List.mem_of_mem_head? hc))

/-- A test that tells digits from the other characters of a numeral. -/
structure TellsDigits (p : Char → Bool) : Prop where
  digit : ∀ c : Char, c.isDigit → p c
  other : ∀ c ∈ ['.', 'e', 'E', '+', '-'], ¬ p c

theorem tellsDigits_isDigit : TellsDigits Char.isDigit := ⟨fun _ h => h, by simp⟩

theorem tellsDigits_isDecimalDigit : TellsDigits Text.isDecimalDigit :=
  ⟨fun _ => isDecimalDigit_of_isDigit, by simp; decide⟩

namespace Spelling

variable {p : Char → Bool} (hp : TellsDigits p) (s : Spelling)

theorem isDigit_whole {c : Char} (h : c ∈ s.whole) : c.isDigit :=
  s.isDigit c (List.mem_append_left _ h)

theorem isDigit_fraction {ds : List Char} (hds : s.fraction = some ds) {c : Char} (h : c ∈ ds) :
    c.isDigit :=
  s.isDigit c (List.mem_append_right _ (by simpa [hds] using h))

theorem head?_powerText {c : Char} (h : c ∈ s.powerText.head?) : c = 'e' ∨ c = 'E' := by
  unfold powerText at h
  cases hpower : s.power with
  | none => simp [hpower] at h
  | some power =>
    obtain rfl : power.letter = c := by simpa [hpower, Power.text] using h
    exact power.isLetter

theorem head?_tailText {c : Char} (h : c ∈ s.tailText.head?) : c = '.' ∨ c = 'e' ∨ c = 'E' := by
  unfold tailText at h
  split at h
  · exact .inr (s.head?_powerText h)
  · exact .inl (by simpa using h.symm)

/-- A numeral begins with its sign, or with a digit, or with its point. -/
theorem head?_unsigned {c : Char} (h : c ∈ (s.whole ++ s.tailText).head?) :
    c ≠ '+' ∧ c ≠ '-' := by
  cases hwhole : s.whole with
  | nil =>
    rw [hwhole, List.nil_append] at h
    obtain rfl | rfl | rfl := s.head?_tailText h <;> decide
  | cons d ds =>
    obtain rfl : d = c := by simpa [hwhole] using h
    exact not_sign_of_isDigit (s.isDigit_whole (by simp [hwhole]))

include hp

/-- **A numeral is cut into its parts** by any test that tells its digits. -/
theorem split_text :
    split p s.text = (decide (s.sign = .minus), s.whole, s.fraction, s.powerText) := by
  have hwhole := Text.span_append p s.tailText (fun c hc => hp.digit c (s.isDigit_whole hc))
    fun c hc => hp.other c (by have := s.head?_tailText hc; simp; tauto)
  have hpower : ∀ c ∈ s.powerText.head?, ¬ p c := fun c hc =>
    hp.other c (by have := s.head?_powerText hc; simp; tauto)
  simp only [split, text, splitSign_text s.sign fun c => s.head?_unsigned, hwhole]
  cases hfraction : s.fraction with
  | none =>
    simp only [tailText, hfraction]
    -- no second point follows the digits
    split
    · rename_i rest hpoint
      rcases s.head?_powerText (c := '.') (by simp [hpoint]) with h | h <;> cases h
    · rfl
  | some ds =>
    have hds := Text.span_append p _ (fun c hc => hp.digit c (s.isDigit_fraction hfraction hc)) hpower
    simp only [tailText, hfraction, hds]

omit hp

/-! ## Reading -/

theorem exponent?_text (power : Power) : exponent? power.text = some power.value := by
  have hdigits : power.digits.all Char.isDigit := List.all_eq_true.2 power.isDigit
  simp only [exponent?, Power.text, if_pos power.isLetter, splitSign_digits _ power.isDigit,
    if_pos (And.intro power.ne_nil hdigits), Option.some.injEq]
  unfold Power.value
  cases power.sign <;> simp [Sign.factor, digitsValue_eq]

/-- **A numeral is read as its parts.** -/
theorem read?_text : read? s.text = some s.numeral := by
  simp only [read?, s.split_text tellsDigits_isDigit, if_neg s.ne_nil, numeral]
  cases hpower : s.power with
  | none => simp [powerText, hpower]
  | some power =>
    have hne : power.text ≠ [] := List.cons_ne_nil _ _
    simp only [powerText, hpower, Option.map_some, Option.getD_some, if_neg hne, exponent?_text]

/-! ## Form -/

theorem hasIntegerForm_digits (sign : Sign) {ds : List Char} (hne : ds ≠ [])
    (hds : ∀ c ∈ ds, c.isDigit) : hasIntegerForm (sign.text ++ ds) := by
  have hall : ds.all Text.isDecimalDigit :=
    List.all_eq_true.2 fun c hc => isDecimalDigit_of_isDigit (hds c hc)
  simp [hasIntegerForm, splitSign_digits sign hds, hne, hall]

theorem hasExponentForm_text (power : Power) : hasExponentForm power.text := by
  have hform := hasIntegerForm_digits power.sign power.ne_nil power.isDigit
  have hletter := power.isLetter
  simp [hasExponentForm, Power.text, hform, hletter]

theorem hasDecimalForm_text : hasDecimalForm s.text := by
  simp only [hasDecimalForm, s.split_text tellsDigits_isDecimalDigit]
  have hne := s.ne_nil
  cases hpower : s.power with
  | none => simp [powerText, hpower, hne]
  | some power => simp [powerText, hpower, hne, hasExponentForm_text]

theorem hasIntegerForm_text : hasIntegerForm s.text ↔ s.IsPlain := by
  constructor
  · intro h
    simp only [hasIntegerForm, text, splitSign_text s.sign fun c => s.head?_unsigned,
      Bool.and_eq_true, List.all_eq_true] at h
    have hother : ∀ c ∈ ['.', 'e', 'E'], c ∉ s.tailText := fun c hc hmem =>
      tellsDigits_isDecimalDigit.other c (by simp at hc ⊢; tauto)
        (h.2 c (List.mem_append_right _ hmem))
    cases hfraction : s.fraction with
    | some ds => exact absurd (by simp [tailText, hfraction]) (hother '.' (by simp))
    | none =>
      cases hpower : s.power with
      | some power =>
        have hmem : power.letter ∈ s.tailText := by
          simp [tailText, hfraction, powerText, hpower, Power.text]
        exact absurd hmem (hother _ (by have := power.isLetter; simp; tauto))
      | none => exact ⟨hfraction, hpower⟩
  · rintro ⟨hfraction, hpower⟩
    have hne : s.whole ≠ [] := by simpa [hfraction] using s.ne_nil
    simpa [text, tailText, powerText, hfraction, hpower] using
      hasIntegerForm_digits s.sign hne fun c => s.isDigit_whole

/-! ## Value -/

/-- The number is an integer scaled by a power of ten. -/
theorem value_eq :
    s.value = s.sign.factor * (digitsValue s.numeral.digits * 10 ^ s.numeral.scale) := by
  have hscale : (10 : ℚ) ^ s.numeral.scale =
      10 ^ (s.power.map Power.value).getD 0 / 10 ^ (s.fraction.getD []).length := by
    rw [scale, numeral, zpow_sub₀ (by norm_num), zpow_natCast]
  have hdigits : (digitsValue s.numeral.digits : ℚ) =
      Nat.ofDigitChars 10 s.whole 0 * 10 ^ (s.fraction.getD []).length +
        Nat.ofDigitChars 10 (s.fraction.getD []) 0 := by
    rw [digits, numeral, digitsValue_append]
    push_cast
    rfl
  rw [hscale, hdigits, value]
  field_simp

theorem abs_value : |s.value| = digitsValue s.numeral.digits * 10 ^ s.numeral.scale := by
  have hsign : |(s.sign.factor : ℚ)| = 1 := by cases s.sign <;> simp [Sign.factor]
  rw [value_eq, abs_mul, hsign, one_mul, abs_of_nonneg (by positivity)]

/-- **What is read overflows just if the number is beyond the range of doubles.** -/
theorem overflows_iff : s.numeral.overflows ↔ Double.overflowBound ≤ |s.value| := by
  have hlt : digitsValue s.numeral.digits < 10 ^ s.numeral.digits.length := digitsValue_lt s.isDigit
  rw [overflows, Double.overflowsScaled_iff hlt, abs_value]

end Spelling

end Numeral

end TrafficSchema
