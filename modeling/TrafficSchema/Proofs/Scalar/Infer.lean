import TrafficSchema.Proofs.Scalar.Numeral
import TrafficSchema.Scalar.Infer

/-!
# The tag of a numeral

A numeral is taken for text just if it is beyond the range of doubles, which is to say that it is
rounded to infinity (`Tag.infer_numeral`). A numeral in range is a `float` if it has a point or an
exponent.

An integer in range is an `int` just if it comes back unchanged from a double that is cut to 128
bits (`Tag.infer_integer`). Every double of that size comes back, and one more integer does: the
greatest one of 128 bits is rounded up, and what is beyond 128 bits is cut back to it. The doubles
beyond 128 bits do not come back.
-/

namespace TrafficSchema

namespace Numeral

/-! ## Integers -/

/-- Digits without a point. -/
def Spelling.ofInteger (sign : Sign) (zeros n : ℕ) : Spelling where
  sign := sign
  whole := List.replicate zeros '0' ++ Nat.toDigits 10 n
  fraction := none
  power := none
  ne_nil := by simp [Nat.toDigits_ne_nil]
  isDigit c hc := by
    simp only [Option.getD_none, List.append_nil, List.mem_append] at hc
    rcases hc with hc | hc
    · rw [List.eq_of_mem_replicate hc]
      rfl
    · exact Nat.isDigit_of_mem_toDigits (by omega) (by omega) hc

/-- A text is a decimal spelling of an integer, with blanks around it. -/
def SpellsInteger (cs : List Char) (n : ℤ) : Prop :=
  ∃ (before after : List Char) (sign : Sign) (zeros : ℕ),
    (∀ c ∈ before ++ after, Text.isBlank c) ∧ n = sign.factor * n.natAbs ∧
      cs = before ++
        (sign.text ++ (List.replicate zeros '0' ++ Nat.toDigits 10 n.natAbs)) ++ after

theorem spellsInteger_append (before after : List Char) (sign : Sign) (zeros n : ℕ)
    (hblank : ∀ c ∈ before ++ after, Text.isBlank c) :
    SpellsInteger
      (before ++ (sign.text ++ (List.replicate zeros '0' ++ Nat.toDigits 10 n)) ++ after)
      (sign.factor * n) := by
  have habs : (sign.factor * (n : ℤ)).natAbs = n := by cases sign <;> simp [Sign.factor]
  exact ⟨before, after, sign, zeros, hblank, by rw [habs], by rw [habs]⟩

/-- The integers that come back unchanged from a double that is cut to 128 bits. -/
def ComesBack (n : ℤ) : Prop :=
  Double.Holds n ∧ -2 ^ 127 ≤ n ∧ n < 2 ^ 127 ∨ n = 2 ^ 127 - 1

theorem isPlain_ofInteger (sign : Sign) (zeros n : ℕ) : (Spelling.ofInteger sign zeros n).IsPlain :=
  ⟨rfl, rfl⟩

theorem digitsValue_ofInteger (sign : Sign) (zeros n : ℕ) :
    digitsValue (Spelling.ofInteger sign zeros n).whole = n := by
  rw [digitsValue_eq, Spelling.ofInteger, Nat.ofDigitChars_append, Nat.ofDigitChars_replicate_zero,
    mul_zero, Nat.ofDigitChars_ten_toDigits]

theorem value_ofInteger (sign : Sign) (zeros n : ℕ) :
    (Spelling.ofInteger sign zeros n).value = (sign.factor * n : ℤ) := by
  have hwhole := digitsValue_ofInteger sign zeros n
  rw [digitsValue_eq] at hwhole
  simp only [Spelling.value, hwhole]
  simp [Spelling.ofInteger]

theorem not_isBlank_of_mem_ofInteger {sign : Sign} {zeros n : ℕ} {c : Char}
    (h : c ∈ (Spelling.ofInteger sign zeros n).text) : ¬ Text.isBlank c := by
  rw [Spelling.text, List.mem_append] at h
  rcases h with h | h
  · cases sign with
    | none => cases h
    | plus =>
      rw [List.mem_singleton.1 h]
      decide
    | minus =>
      rw [List.mem_singleton.1 h]
      decide
  · exact Text.not_isBlank_of_isDigit ((Spelling.ofInteger sign zeros n).isDigit c h)

theorem roundNat_pow : Double.roundNat (2 ^ 127) = 2 ^ 127 := by decide +kernel

/-- The greatest integer of 128 bits is rounded up. -/
theorem roundNat_pow_sub_one : Double.roundNat (2 ^ 127 - 1) = 2 ^ 127 := by decide +kernel

/-- A number within a limit is the same after it is rounded and cut to the limit just if a double
holds it, or if it is the limit and is not rounded down. -/
theorem min_roundNat_eq_iff {limit n : ℕ} (h : n ≤ limit) :
    min (Double.roundNat n) limit = n ↔
      Double.Holds n ∨ n = limit ∧ limit ≤ Double.roundNat limit := by
  rw [← Double.roundNat_eq_self_iff_holds]
  constructor
  · intro hmin
    rcases min_choice (Double.roundNat n) limit with hchoice | hchoice
    · exact .inl (hchoice.symm.trans hmin)
    · obtain rfl : limit = n := hchoice.symm.trans hmin
      exact .inr ⟨rfl, min_eq_right_iff.1 hchoice⟩
  · rintro (hround | ⟨rfl, hround⟩)
    · rw [hround, min_eq_left h]
    · exact min_eq_right hround

/-- The lower limit of 128 bits is itself held by a double. -/
theorem comesBack_neg_iff {n : ℕ} :
    ComesBack (-n) ↔ n ≤ 2 ^ 127 ∧ min (Double.roundNat n) (2 ^ 127) = n := by
  have hneg : Double.Holds (-(n : ℤ)) ↔ Double.Holds n :=
    ⟨fun h => neg_neg (n : ℤ) ▸ h.neg, Double.Holds.neg⟩
  have hpow (h : n = 2 ^ 127) : Double.Holds n :=
    Double.roundNat_eq_self_iff_holds.1 (h ▸ roundNat_pow)
  rw [ComesBack, hneg]
  constructor
  · rintro (⟨hholds, hlower, -⟩ | heq)
    · have hle : n ≤ 2 ^ 127 := by omega
      exact ⟨hle, (min_roundNat_eq_iff hle).2 (.inl hholds)⟩
    · omega
  · rintro ⟨hle, hmin⟩
    rcases (min_roundNat_eq_iff hle).1 hmin with hholds | ⟨heq, -⟩
    · exact .inl ⟨hholds, by omega, by omega⟩
    · exact .inl ⟨hpow heq, by omega, by omega⟩

/-- The upper limit of 128 bits is rounded up and cut back. -/
theorem comesBack_natCast_iff {n : ℕ} :
    ComesBack n ↔ n ≤ 2 ^ 127 - 1 ∧ min (Double.roundNat n) (2 ^ 127 - 1) = n := by
  have hround : 2 ^ 127 - 1 ≤ Double.roundNat (2 ^ 127 - 1) := by
    rw [roundNat_pow_sub_one]
    omega
  rw [ComesBack]
  constructor
  · rintro (⟨hholds, -, hupper⟩ | heq)
    · have hle : n ≤ 2 ^ 127 - 1 := by omega
      exact ⟨hle, (min_roundNat_eq_iff hle).2 (.inl hholds)⟩
    · have heq' : n = 2 ^ 127 - 1 := by omega
      exact ⟨heq'.le, (min_roundNat_eq_iff heq'.le).2 (.inr ⟨heq', hround⟩)⟩
  · rintro ⟨hle, hmin⟩
    rcases (min_roundNat_eq_iff hle).1 hmin with hholds | ⟨heq, -⟩
    · exact .inl ⟨hholds, by omega, by omega⟩
    · exact .inr (by omega)

/-- **What counts as an exact integer is what comes back from a double.** -/
theorem isExactInteger_ofInteger (sign : Sign) (zeros n : ℕ) :
    (Spelling.ofInteger sign zeros n).numeral.isExactInteger ↔ ComesBack (sign.factor * n) := by
  have hsign : (Spelling.ofInteger sign zeros n).sign = sign := rfl
  simp only [isExactInteger, Spelling.numeral, digitsValue_ofInteger, hsign, Bool.and_eq_true,
    decide_eq_true_eq, beq_iff_eq, Nat.pow_eq]
  by_cases hminus : sign = .minus
  · have hfactor : sign.factor * (n : ℤ) = -n := by
      rw [hminus]
      exact neg_one_mul _
    rw [if_pos hminus, hfactor, comesBack_neg_iff]
  · have hfactor : sign.factor * (n : ℤ) = n := by
      cases sign with
      | none => exact one_mul _
      | plus => exact one_mul _
      | minus => exact absurd rfl hminus
    rw [if_neg hminus, hfactor, comesBack_natCast_iff]

end Numeral

namespace Tag

open Numeral

/-- The tags that the form of an integer can lead to. -/
theorem ofInteger_mem (cs : List Char) : ofInteger cs ∈ [str, int, float] := by
  unfold ofInteger
  split
  · split_ifs <;> decide
  · decide

/-- The tags that the form of a decimal number can lead to. -/
theorem ofDecimal_mem (cs : List Char) : ofDecimal cs ∈ [str, float] := by
  unfold ofDecimal
  split
  · split_ifs <;> decide
  · decide

/-- Only the empty text has no type. -/
theorem infer_eq_none_iff {value : String} : infer value = none ↔ value = "" := by
  constructor
  · intro h
    have hinteger := ofInteger_mem (Text.trim value.toList)
    have hdecimal := ofDecimal_mem (Text.trim value.toList)
    unfold infer at h
    split at h
    · assumption
    dsimp only at h
    split at h
    · rw [h] at hinteger
      exact absurd hinteger (by decide)
    split at h
    · rw [h] at hdecimal
      exact absurd hdecimal (by decide)
    split_ifs at h
  · rintro rfl
    rfl

variable {s : Spelling} {value : String}

theorem ne_empty_of_trim (h : Text.trim value.toList = s.text) : value ≠ "" := by
  rintro rfl
  exact s.text_ne_nil h.symm

theorem infer_of_isPlain (h : Text.trim value.toList = s.text) (hplain : s.IsPlain) :
    infer value = if s.numeral.overflows then str else
      if s.numeral.isExactInteger then int else float := by
  simp only [infer, if_neg (ne_empty_of_trim h), h, s.hasIntegerForm_text.2 hplain, ofInteger,
    s.read?_text]
  rfl

theorem infer_of_not_isPlain (h : Text.trim value.toList = s.text) (hplain : ¬ s.IsPlain) :
    infer value = if s.numeral.overflows then str else float := by
  have hinteger : hasIntegerForm s.text = false := by
    rw [Bool.eq_false_iff, ne_eq, s.hasIntegerForm_text]
    exact hplain
  simp only [infer, if_neg (ne_empty_of_trim h), h, hinteger, s.hasDecimalForm_text, ofDecimal,
    s.read?_text]
  rfl

theorem infer_eq_str_iff (h : Text.trim value.toList = s.text) :
    infer value = str ↔ Double.overflowBound ≤ |s.value| := by
  rw [← s.overflows_iff]
  by_cases hplain : s.IsPlain
  · rw [infer_of_isPlain h hplain]
    split_ifs <;> simp [*]
  · rw [infer_of_not_isPlain h hplain]
    split_ifs <;> simp [*]

/-- The three tags that an integer can get, by whether it overflows and whether it is exact. -/
theorem integerTag_iff (overflows exact : Bool) :
    ((if overflows then str else if exact then int else float) = str ↔ overflows) ∧
    ((if overflows then str else if exact then int else float) = int ↔ ¬ overflows ∧ exact) ∧
    ((if overflows then str else if exact then int else float) = float ↔
      ¬ overflows ∧ ¬ exact) := by
  cases overflows <;> cases exact <;> simp

/-- **A numeral is text just if it is beyond the range of doubles.** This is the case just if
correct rounding takes it to infinity. In range it is a `float` if it has a point or an exponent,
and an `int` or a `float` if it has neither. -/
theorem infer_numeral (s : Spelling) (value : String) (h : Text.trim value.toList = s.text) :
    (infer value = str ↔ 2 ^ 1024 - 2 ^ 970 ≤ |s.value|) ∧
    (|s.value| < 2 ^ 1024 - 2 ^ 970 → s.IsPlain → infer value = int ∨ infer value = float) ∧
    (|s.value| < 2 ^ 1024 - 2 ^ 970 → ¬ s.IsPlain → infer value = float) ∧
    ∀ v, Double.RoundsTo s.value v → (infer value = str ↔ 2 ^ 1024 ≤ |v|) := by
  have hstr := infer_eq_str_iff h
  have hrange (hlt : |s.value| < 2 ^ 1024 - 2 ^ 970) : ¬ s.numeral.overflows := by
    rw [s.overflows_iff, Double.cast_overflowBound]
    exact not_le.2 hlt
  refine ⟨by rw [hstr, Double.cast_overflowBound], fun hlt hplain => ?_, fun hlt hplain => ?_,
    fun v hv => by rw [hstr, hv.overflow_iff]⟩
  · rw [infer_of_isPlain h hplain, if_neg (hrange hlt)]
    split
    · exact .inl rfl
    · exact .inr rfl
  · rw [infer_of_not_isPlain h hplain, if_neg (hrange hlt)]

/-- The numeral `1E400`. -/
def hugePower : Spelling where
  sign := Sign.none
  whole := ['1']
  fraction := Option.none
  power := some ⟨'E', Sign.none, ['4', '0', '0'], .inr rfl, by decide, List.all_eq_true.1 rfl⟩
  ne_nil := by decide
  isDigit := List.all_eq_true.1 rfl

/-- The numeral `.5`. -/
def oneHalf : Spelling where
  sign := Sign.none
  whole := []
  fraction := some ['5']
  power := Option.none
  ne_nil := by decide
  isDigit := List.all_eq_true.1 rfl

theorem value_hugePower : hugePower.value = (10 : ℚ) ^ 400 := by
  have hwhole : Nat.ofDigitChars 10 ['1'] 0 = 1 := rfl
  have hpower : Nat.ofDigitChars 10 ['4', '0', '0'] 0 = 400 := rfl
  simp [Spelling.value, Power.value, hugePower, Sign.factor, hwhole, hpower]

theorem value_oneHalf : oneHalf.value = 1 / 2 := by
  have hfraction : Nat.ofDigitChars 10 ['5'] 0 = 5 := rfl
  norm_num [Spelling.value, oneHalf, hfraction, Sign.factor]

theorem infer_numeral_hugePower :
    infer "\t1E400 " = str ∧ infer ".5" = float ∧
      (infer "+12" = str ↔ (2 : ℚ) ^ 1024 ≤ |12|) := by
  have hhuge : (2 : ℚ) ^ 1024 - 2 ^ 970 ≤ |hugePower.value| := by
    have hbound : (Double.overflowBound : ℚ) ≤ 10 ^ 309 := by
      exact_mod_cast Double.overflowBound_le_pow
    rw [value_hugePower, abs_of_nonneg (by positivity), ← Double.cast_overflowBound]
    exact hbound.trans (pow_le_pow_right₀ (by norm_num) (by norm_num))
  have hhalf : |oneHalf.value| < 2 ^ 1024 - 2 ^ 970 := by
    rw [value_oneHalf, ← Double.cast_overflowBound]
    calc |(1 / 2 : ℚ)| < (1 : ℕ) := by norm_num
      _ ≤ Double.overflowBound := Nat.cast_le.2 Double.overflowBound_pos
  have htwelve : Double.RoundsTo (Spelling.ofInteger Sign.plus 0 12).value 12 := by
    have hround := Double.roundsTo_roundNat 12
    rw [value_ofInteger]
    exact_mod_cast hround
  exact ⟨(infer_numeral hugePower _ (by cbv)).1.2 hhuge,
    (infer_numeral oneHalf _ (by cbv)).2.2.1 hhalf (by simp [Spelling.IsPlain, oneHalf]),
    (infer_numeral (Spelling.ofInteger Sign.plus 0 12) _ (by cbv)).2.2.2 12 htwelve⟩

/-- **An integer is an `int` just if it comes back from a double**, however it is spelled. Beyond
the range of doubles it is text. -/
theorem infer_integer (n : ℤ) (value : String) (h : SpellsInteger value.toList n) :
    (infer value = str ↔ 2 ^ 1024 - 2 ^ 970 ≤ |n|) ∧
    (infer value = int ↔ |n| < 2 ^ 1024 - 2 ^ 970 ∧ ComesBack n) ∧
    (infer value = float ↔ |n| < 2 ^ 1024 - 2 ^ 970 ∧ ¬ ComesBack n) := by
  obtain ⟨before, after, sign, zeros, hblank, hn, htext⟩ := h
  have htrim : Text.trim value.toList = (Spelling.ofInteger sign zeros n.natAbs).text := by
    have htext' : (Spelling.ofInteger sign zeros n.natAbs).text =
        sign.text ++ (List.replicate zeros '0' ++ Nat.toDigits 10 n.natAbs) := by
      simp [Spelling.text, Spelling.tailText, Spelling.powerText, Spelling.ofInteger]
    rw [htext, ← htext']
    exact Text.trim_append (fun c hc => hblank c (List.mem_append_left _ hc))
      (fun c => not_isBlank_of_mem_ofInteger) fun c hc => hblank c (List.mem_append_right _ hc)
  have hvalue : (Spelling.ofInteger sign zeros n.natAbs).value = n := by
    rw [value_ofInteger, ← hn]
  have hover : (Spelling.ofInteger sign zeros n.natAbs).numeral.overflows ↔
      2 ^ 1024 - 2 ^ 970 ≤ |n| := by
    rw [Spelling.overflows_iff, hvalue, ← Double.cast_overflowBound]
    exact_mod_cast Iff.rfl
  have hexact := isExactInteger_ofInteger sign zeros n.natAbs
  rw [← hn] at hexact
  rw [infer_of_isPlain htrim (isPlain_ofInteger sign zeros _), ← not_le, ← hover, ← hexact]
  exact integerTag_iff _ _

theorem not_holds_of_roundNat {n : ℕ} (h : Double.roundNat n ≠ n) : ¬ Double.Holds n :=
  fun hholds => h (Double.roundNat_eq_self_iff_holds.2 hholds)

/-- `2 ^ 53 + 1` is the least natural number that no double holds. -/
theorem infer_integer_float :
    SpellsInteger "\t+0009007199254740993\n".toList 9007199254740993 ∧
      infer "\t+0009007199254740993\n" = float := by
  have hspells : SpellsInteger "\t+0009007199254740993\n".toList 9007199254740993 :=
    spellsInteger_append ['\t'] ['\n'] .plus 3 9007199254740993 (List.all_eq_true.1 rfl)
  have hrange : |(9007199254740993 : ℤ)| < 2 ^ 1024 - 2 ^ 970 := by
    rw [← Double.cast_overflowBound]
    decide +kernel
  have hchanged : ¬ ComesBack 9007199254740993 := by
    have hround := not_holds_of_roundNat (n := 9007199254740993) (by decide +kernel)
    rintro (⟨hholds, -⟩ | heq)
    · exact hround hholds
    · omega
  exact ⟨hspells, (infer_integer _ _ hspells).2.2.2 ⟨hrange, hchanged⟩⟩

/-- **Not every `int` is held by a double, and not every integer that a double holds is an `int`.**
The greatest integer of 128 bits is rounded up and cut back to itself; the next one is beyond 128
bits. -/
theorem not_int_iff_holds :
    (SpellsInteger "170141183460469231731687303715884105727".toList (2 ^ 127 - 1) ∧
      ¬ Double.Holds (2 ^ 127 - 1) ∧ infer "170141183460469231731687303715884105727" = int) ∧
    (SpellsInteger "170141183460469231731687303715884105728".toList (2 ^ 127) ∧
      Double.Holds (2 ^ 127) ∧ (2 ^ 127 : ℤ) < 2 ^ 1024 - 2 ^ 970 ∧
      infer "170141183460469231731687303715884105728" = float) := by
  have hround := not_holds_of_roundNat (n := 2 ^ 127 - 1) (by decide +kernel)
  have hholds : Double.Holds (2 ^ 127 : ℕ) := Double.roundNat_eq_self_iff_holds.1 roundNat_pow
  have hrange : (2 ^ 127 : ℤ) < 2 ^ 1024 - 2 ^ 970 := by
    rw [← Double.cast_overflowBound]
    decide +kernel
  have hbefore := spellsInteger_append [] [] .none 0 (2 ^ 127 - 1) (by simp)
  have hpow := spellsInteger_append [] [] .none 0 (2 ^ 127) (by simp)
  exact ⟨⟨hbefore, hround, by decide +kernel⟩, hpow, hholds, hrange, by decide +kernel⟩

end Tag

end TrafficSchema
