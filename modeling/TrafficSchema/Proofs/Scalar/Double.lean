import Mathlib.Algebra.Order.Field.Power
import Mathlib.Algebra.Order.Ring.Abs
import Mathlib.Data.Rat.Cast.Order
import Mathlib.Tactic
import TrafficSchema.Scalar.Numeral

/-!
# Rounding to doubles

A double has a significand of 53 binary digits and an exponent. `Double.RoundsTo` says what it means
for a number to be rounded correctly, to the nearest double and to an even significand where two
are equally near. The range of exponents is taken to have no upper end there, so a number is
rounded to infinity where the result would be `2 ^ 1024` or more.

* `Double.roundsTo_roundNat`: `Double.roundNat` rounds natural numbers correctly. So it leaves just
  the doubles as they are (`Double.roundNat_eq_self_iff`).
* `Double.RoundsTo.overflow_iff`: the numbers that are rounded to infinity are those from
  `Double.overflowBound` on, whatever their sign.
-/

namespace TrafficSchema.Double

/-- The numbers with a significand of 53 binary digits and no digit beyond the 1074th place. -/
def Representable (x : ℚ) : Prop :=
  ∃ m e : ℤ, |m| < 2 ^ 53 ∧ -1074 ≤ e ∧ x = m * 2 ^ e

/-- The last digit of the significand is zero. The significand is taken as long as it can be. -/
def HasEvenSignificand (x : ℚ) : Prop :=
  ∃ m e : ℤ, |m| < 2 ^ 53 ∧ Even m ∧ (2 ^ 52 ≤ |m| ∧ -1074 ≤ e ∨ e = -1074) ∧ x = m * 2 ^ e

/-- A number is correctly rounded to `v`. -/
structure RoundsTo (x v : ℚ) : Prop where
  representable : Representable v
  nearest : ∀ w, Representable w → |x - v| ≤ |x - w|
  even : ∀ w, Representable w → w ≠ v → |x - w| = |x - v| → HasEvenSignificand v

variable {x v w : ℚ}

/-! ## Neighbours -/

theorem Representable.neg (h : Representable x) : Representable (-x) := by
  obtain ⟨m, e, hm, he, rfl⟩ := h
  exact ⟨-m, e, by rwa [abs_neg], he, by push_cast; ring⟩

theorem Representable.abs (h : Representable x) : Representable |x| := by
  rcases abs_choice x with habs | habs
  · rwa [habs]
  · rw [habs]
    exact h.neg

theorem representable_scaled {m : ℕ} (hm : m < 2 ^ 53) (k : ℕ) :
    Representable ((m * 2 ^ k : ℕ) : ℚ) := by
  refine ⟨m, k, ?_, by omega, by push_cast; rw [zpow_natCast]⟩
  rw [Nat.abs_cast]
  exact_mod_cast hm

theorem representable_scaled_of_le {m : ℕ} (hm : m < 2 ^ 53) (k : ℕ) :
    Representable (((m + 1) * 2 ^ k : ℕ) : ℚ) := by
  rcases (Nat.succ_le_of_lt hm).lt_or_eq with hlt | heq
  · exact representable_scaled hlt k
  · have hpow : (m + 1) * 2 ^ k = 2 ^ 52 * 2 ^ (k + 1) := by
      rw [← Nat.succ_eq_add_one, heq, ← pow_add, ← pow_add]
      congr 1
      omega
    rw [hpow]
    exact representable_scaled (by norm_num) (k + 1)

/-- **The numbers with a full significand are the only ones of their size**: between two of them
that follow each other there is no other. -/
theorem Representable.le_or_le (hw : Representable w) {m : ℕ} (hm : 2 ^ 52 ≤ m) (k : ℕ) :
    w ≤ (m * 2 ^ k : ℕ) ∨ (((m + 1) * 2 ^ k : ℕ) : ℚ) ≤ w := by
  obtain ⟨a, e, ha, -, rfl⟩ := hw
  rw [or_iff_not_imp_left, not_le]
  intro hlt
  push_cast at hlt ⊢
  have hm' : (2 ^ 52 : ℚ) ≤ m := by exact_mod_cast hm
  have hpow : (0 : ℚ) < 2 ^ e := by positivity
  have ha' : (a : ℚ) < 2 ^ 53 := by exact_mod_cast (abs_lt.1 ha).2
  -- the exponent is at least that of the two, since the significand is less than twice as long
  have he : (k : ℤ) ≤ e := by
    by_contra hek
    have hexp : (2 : ℚ) ^ e ≤ 2 ^ ((k : ℤ) - 1) := zpow_le_zpow_right₀ (by norm_num) (by omega)
    rw [zpow_sub_one₀ (by norm_num), zpow_natCast] at hexp
    have hk : (0 : ℚ) < 2 ^ k := by positivity
    nlinarith
  obtain ⟨j, rfl⟩ := Int.le.dest he
  rw [zpow_add₀ (by norm_num), zpow_natCast, zpow_natCast] at hlt ⊢
  have hk : (0 : ℚ) < 2 ^ k := by positivity
  have hstep : (m : ℚ) < a * 2 ^ j := by
    refine lt_of_mul_lt_mul_right ?_ hk.le
    linarith
  have hstep' : (m : ℤ) + 1 ≤ a * 2 ^ j := by
    have : (m : ℤ) < a * 2 ^ j := by exact_mod_cast hstep
    omega
  have hstep'' : (m : ℚ) + 1 ≤ a * 2 ^ j := by exact_mod_cast hstep'
  calc ((m : ℚ) + 1) * 2 ^ k ≤ a * 2 ^ j * 2 ^ k := by gcongr
    _ = a * (2 ^ k * 2 ^ j) := by ring

/-! ## Rounding down and up -/

section Gap

variable {lower upper : ℚ} (hgap : ∀ w, Representable w → w ≤ lower ∨ upper ≤ w)
include hgap

/-- A number is rounded down if the double below it is nearer, or even and as near. -/
theorem roundsTo_lower (hlower : Representable lower) (hx : lower ≤ x)
    (hnear : x - lower ≤ upper - x)
    (heven : x - lower = upper - x → HasEvenSignificand lower) : RoundsTo x lower where
  representable := hlower
  nearest w hw := by
    rw [abs_of_nonneg (sub_nonneg.2 hx), le_abs]
    rcases hgap w hw with h | h
    · exact .inl (by linarith)
    · exact .inr (by linarith)
  even w hw hne heq := by
    rw [abs_of_nonneg (sub_nonneg.2 hx)] at heq
    rcases hgap w hw with h | h
    · rw [abs_of_nonneg (by linarith)] at heq
      exact absurd (by linarith) hne
    · rw [abs_of_nonpos (by linarith)] at heq
      exact heven (by linarith)

/-- A number is rounded up if the double above it is nearer, or even and as near. -/
theorem roundsTo_upper (hupper : Representable upper) (hx : x ≤ upper)
    (hnear : upper - x ≤ x - lower)
    (heven : x - lower = upper - x → HasEvenSignificand upper) : RoundsTo x upper where
  representable := hupper
  nearest w hw := by
    rw [abs_of_nonpos (sub_nonpos.2 hx), le_abs]
    rcases hgap w hw with h | h
    · exact .inl (by linarith)
    · exact .inr (by linarith)
  even w hw hne heq := by
    rw [abs_of_nonpos (sub_nonpos.2 hx)] at heq
    rcases hgap w hw with h | h
    · rw [abs_of_nonneg (by linarith)] at heq
      exact heven (by linarith)
    · rw [abs_of_nonpos (by linarith)] at heq
      exact absurd (by linarith) hne

end Gap

/-! ## Natural numbers -/

theorem roundsTo_self (h : Representable x) : RoundsTo x x where
  representable := h
  nearest w _ := by simp
  even w _ hne heq := by
    rw [sub_self, abs_zero, abs_eq_zero, sub_eq_zero] at heq
    exact absurd heq.symm hne

theorem hasEvenSignificand_scaled {m : ℕ} (hlow : 2 ^ 52 ≤ m) (hhigh : m ≤ 2 ^ 53) (hm : Even m)
    (k : ℕ) : HasEvenSignificand ((m * 2 ^ k : ℕ) : ℚ) := by
  rcases hhigh.lt_or_eq with hlt | rfl
  · refine ⟨m, k, ?_, by exact_mod_cast hm, .inl ⟨?_, by omega⟩, by push_cast; rw [zpow_natCast]⟩
    · rw [Nat.abs_cast]
      exact_mod_cast hlt
    · rw [Nat.abs_cast]
      exact_mod_cast hlow
  · refine ⟨2 ^ 52, k + 1, by norm_num, by decide, .inl ⟨by norm_num, by omega⟩, ?_⟩
    push_cast
    rw [zpow_add_one₀ (by norm_num), zpow_natCast]
    ring

/-- A number whose first 53 digits are `m` and which has `k` more, `r`, is rounded to one of the two
doubles around it. -/
theorem roundsTo_ite {m k r : ℕ} (hlow : 2 ^ 52 ≤ m) (hhigh : m < 2 ^ 53) (hr : r < 2 ^ k) :
    RoundsTo (m * 2 ^ k + r : ℕ)
      (if 2 * r < 2 ^ k ∨ (2 * r = 2 ^ k ∧ m % 2 = 0) then m * 2 ^ k else (m + 1) * 2 ^ k : ℕ) := by
  have hgap (w : ℚ) (hw : Representable w) := hw.le_or_le hlow k
  have hr' : (r : ℚ) < 2 ^ k := by exact_mod_cast hr
  have htie (h : ((m * 2 ^ k + r : ℕ) : ℚ) - (m * 2 ^ k : ℕ) =
      ((m + 1) * 2 ^ k : ℕ) - (m * 2 ^ k + r : ℕ)) : 2 * r = 2 ^ k := by
    push_cast at h
    have h' : (2 * r : ℚ) = 2 ^ k := by linarith
    exact_mod_cast h'
  split
  · rename_i hdown
    have hnear : (2 * r : ℚ) ≤ 2 ^ k := by exact_mod_cast (by omega : 2 * r ≤ 2 ^ k)
    refine roundsTo_lower hgap (representable_scaled hhigh k) ?_ ?_ fun h => ?_
    · push_cast
      linarith [Nat.cast_nonneg (α := ℚ) r]
    · push_cast
      linarith
    · have heven : Even m := Nat.even_iff.2 (by have := htie h; omega)
      exact hasEvenSignificand_scaled hlow hhigh.le heven k
  · rename_i hup
    have hnear : (2 ^ k : ℚ) ≤ 2 * r := by exact_mod_cast (by omega : 2 ^ k ≤ 2 * r)
    refine roundsTo_upper hgap (representable_scaled_of_le hhigh k) ?_ ?_ fun h => ?_
    · push_cast
      linarith
    · push_cast
      linarith
    · have heven : Even (m + 1) := Nat.even_iff.2 (by have := htie h; omega)
      exact hasEvenSignificand_scaled (by omega) hhigh heven k

/-- **Natural numbers are rounded correctly.** -/
theorem roundsTo_roundNat (n : ℕ) : RoundsTo n (roundNat n) := by
  simp only [roundNat, Nat.pow_eq]
  split
  · rename_i hn
    simpa using roundsTo_self (representable_scaled hn 0)
  · rename_i hn
    have hlog : 53 ≤ n.log2 := (Nat.le_log2 (by omega)).2 (not_lt.1 hn)
    have hlow : 2 ^ 52 ≤ n / 2 ^ (n.log2 - 52) := by
      rw [Nat.le_div_iff_mul_le (by positivity), ← pow_add]
      exact (Nat.le_log2 (by omega)).1 (by omega)
    have hhigh : n / 2 ^ (n.log2 - 52) < 2 ^ 53 := by
      rw [Nat.div_lt_iff_lt_mul (by positivity), ← pow_add]
      exact (Nat.log2_lt (by omega)).1 (by omega)
    have hrest : n % 2 ^ (n.log2 - 52) < 2 ^ (n.log2 - 52) := Nat.mod_lt n (by positivity)
    have hround := roundsTo_ite hlow hhigh hrest
    rwa [Nat.div_add_mod'] at hround

/-- **Rounding leaves just the doubles as they are.** -/
theorem roundNat_eq_self_iff {n : ℕ} : roundNat n = n ↔ Representable n := by
  have hround := roundsTo_roundNat n
  constructor
  · intro h
    rw [h] at hround
    exact hround.representable
  · intro h
    have hnear := hround.nearest n h
    rw [sub_self, abs_zero, abs_nonpos_iff, sub_eq_zero] at hnear
    exact_mod_cast hnear.symm

/-! ## Integers -/

/-- The integers with a significand of 53 binary digits. -/
def Holds (n : ℤ) : Prop := ∃ (m : ℤ) (e : ℕ), |m| < 2 ^ 53 ∧ n = m * 2 ^ e

theorem representable_intCast_iff {n : ℤ} : Representable n ↔ Holds n := by
  constructor
  · rintro ⟨m, e, hm, -, h⟩
    rcases Int.eq_nat_or_neg e with ⟨k, rfl | rfl⟩
    · rw [zpow_natCast] at h
      exact ⟨m, k, hm, by exact_mod_cast h⟩
    · -- an integer that is scaled down is less than its significand
      rw [zpow_neg, zpow_natCast, ← div_eq_mul_inv, eq_div_iff (by positivity)] at h
      have h' : n * 2 ^ k = m := by exact_mod_cast h
      have hle : |n| ≤ |m| := by
        have hpow : (1 : ℤ) ≤ 2 ^ k := one_le_pow₀ (by norm_num)
        rw [← h', abs_mul, abs_of_nonneg (zero_le_one.trans hpow)]
        exact le_mul_of_one_le_right (abs_nonneg n) hpow
      exact ⟨n, 0, by omega, by simp⟩
  · rintro ⟨m, e, hm, rfl⟩
    exact ⟨m, e, hm, by omega, by push_cast; rw [zpow_natCast]⟩

theorem Holds.neg {n : ℤ} (h : Holds n) : Holds (-n) := by
  obtain ⟨m, e, hm, rfl⟩ := h
  exact ⟨-m, e, by rwa [abs_neg], by ring⟩

theorem roundNat_eq_self_iff_holds {n : ℕ} : roundNat n = n ↔ Holds n := by
  rw [roundNat_eq_self_iff, ← representable_intCast_iff, Int.cast_natCast]

/-! ## Overflow -/

section Overflow

variable (k : ℕ)

/-- The double before a power of two. -/
def beforePow : ℕ := (2 ^ 53 - 1) * 2 ^ (k + 1)

theorem cast_beforePow : (beforePow k : ℚ) = (2 ^ 54 - 2) * 2 ^ k := by
  rw [beforePow, pow_succ]
  push_cast
  ring

theorem representable_beforePow : Representable (beforePow k) :=
  representable_scaled (by norm_num) (k + 1)

theorem Representable.abs_le_beforePow (hw : Representable w) (h : |w| < 2 ^ 54 * 2 ^ k) :
    |w| ≤ beforePow k := by
  refine (hw.abs.le_or_le (m := 2 ^ 53 - 1) (by norm_num) (k + 1)).resolve_right fun hle => ?_
  have hpow : (2 : ℚ) ^ (k + 1) = 2 ^ k * 2 := pow_succ 2 k
  push_cast at hle
  rw [hpow] at hle
  linarith

variable {k}

/-- The significand of the double before a power of two has only ones. -/
theorem not_hasEvenSignificand_beforePow (h : |v| = beforePow k) : ¬ HasEvenSignificand v := by
  rintro ⟨m, e, hm, heven, -, rfl⟩
  have hpos : (0 : ℚ) < 2 ^ k := by positivity
  have hm' : |(m : ℚ)| ≤ 2 ^ 53 - 1 := by
    have hle : |m| ≤ 2 ^ 53 - 1 := by omega
    exact_mod_cast hle
  rw [abs_mul, abs_of_pos (by positivity : (0 : ℚ) < 2 ^ e), cast_beforePow] at h
  have he : (k : ℤ) + 1 ≤ e := by
    by_contra hek
    have hexp : (2 : ℚ) ^ e ≤ 2 ^ k := by
      rw [← zpow_natCast]
      exact zpow_le_zpow_right₀ (by norm_num) (by omega)
    have hexp' : (0 : ℚ) < 2 ^ e := by positivity
    nlinarith
  obtain ⟨j, rfl⟩ := Int.le.dest he
  rw [zpow_add₀ (by norm_num), zpow_add_one₀ (by norm_num), zpow_natCast, zpow_natCast] at h
  have hodd : |(m : ℚ)| * 2 ^ j = 2 ^ 53 - 1 := by
    apply mul_right_cancel₀ hpos.ne'
    linarith
  have hodd' : |m| * 2 ^ j = 2 ^ 53 - 1 := by exact_mod_cast hodd
  have heven' : Even (|m| * 2 ^ j) := ((even_abs).2 heven).mul_right _
  rw [hodd'] at heven'
  exact absurd heven' (by decide)

/-- There is a double of a given size on the side of a number. -/
theorem exists_abs_sub_eq (hv : Representable v) (hpos : 0 ≤ v) (x : ℚ) :
    ∃ w, Representable w ∧ |w| = v ∧ |x - w| = |(|x| - v)| := by
  rcases le_total 0 x with hx | hx
  · exact ⟨v, hv, abs_of_nonneg hpos, by rw [abs_of_nonneg hx]⟩
  · refine ⟨-v, hv.neg, by rw [abs_neg, abs_of_nonneg hpos], ?_⟩
    rw [abs_of_nonpos hx, ← abs_neg]
    congr 1
    ring

/-- A number is rounded to a power of two or beyond just from halfway between it and the double
before it on. -/
theorem RoundsTo.pow_le_abs_iff (h : RoundsTo x v) (k : ℕ) :
    2 ^ 54 * 2 ^ k ≤ |v| ↔ (2 ^ 54 - 1) * 2 ^ k ≤ |x| := by
  have hpos : (0 : ℚ) < 2 ^ k := by positivity
  have hbefore := cast_beforePow k
  constructor
  · intro hv
    by_contra hx
    -- the double before the power is nearer
    obtain ⟨w, hw, -, hdist⟩ := exists_abs_sub_eq (representable_beforePow k) (Nat.cast_nonneg _) x
    have hnear := h.nearest w hw
    have hfar := abs_sub_abs_le_abs_sub v x
    rw [abs_sub_comm v x] at hfar
    rw [hdist] at hnear
    rcases abs_cases (|x| - beforePow k) with ⟨habs, -⟩ | ⟨habs, -⟩
    · linarith
    · linarith
  · intro hx
    by_contra hv
    have hmax := h.representable.abs_le_beforePow k (not_le.1 hv)
    -- the power is nearer, or as near as a double with an odd significand
    obtain ⟨w, hw, hwpow, hdist⟩ := exists_abs_sub_eq
      (v := ((2 ^ 52 * 2 ^ (k + 2) : ℕ) : ℚ)) (representable_scaled (by norm_num) (k + 2))
      (Nat.cast_nonneg _) x
    have hpow : ((2 ^ 52 * 2 ^ (k + 2) : ℕ) : ℚ) = 2 ^ 54 * 2 ^ k := by
      push_cast
      ring
    rw [hpow] at hwpow hdist
    have hnear := h.nearest w hw
    have hfar := abs_sub_abs_le_abs_sub x v
    have hne : w ≠ v := by
      rintro rfl
      exact hv hwpow.ge
    rcases abs_cases (|x| - 2 ^ 54 * 2 ^ k) with ⟨habs, -⟩ | ⟨habs, -⟩
    · linarith
    · have hodd : |v| = beforePow k := by linarith
      exact not_hasEvenSignificand_beforePow hodd (h.even w hw hne (by linarith))

end Overflow

/-! ## The bound -/

theorem overflowBound_eq : overflowBound = 2 ^ 1024 - 2 ^ 970 := by
  unfold overflowBound
  -- the powers are too large to be evaluated
  generalize 1024 = m, 970 = n
  rfl

section Powers

variable {m n : ℕ}

theorem cast_pow_sub_pow {R : Type*} [Ring R] (h : n ≤ m) :
    ((2 ^ m - 2 ^ n : ℕ) : R) = 2 ^ m - 2 ^ n := by
  rw [Nat.cast_sub (Nat.pow_le_pow_right (by omega) h)]
  push_cast
  rfl

theorem pow_sub_pow_pos (h : n < m) : 0 < 2 ^ m - 2 ^ n :=
  Nat.sub_pos_of_lt (Nat.pow_lt_pow_right (by omega) h)

end Powers

theorem cast_overflowBound {R : Type*} [Ring R] : (overflowBound : R) = 2 ^ 1024 - 2 ^ 970 := by
  rw [overflowBound_eq]
  exact cast_pow_sub_pow (by omega)

theorem overflowBound_pos : 0 < overflowBound := by
  rw [overflowBound_eq]
  exact pow_sub_pow_pos (by omega)

theorem overflowBound_le_pow : overflowBound ≤ 10 ^ 309 := by
  rw [overflowBound_eq]
  refine (Nat.sub_le _ _).trans ?_
  calc (2 : ℕ) ^ 1024 = (2 ^ 93) ^ 11 * 2 := by rw [← pow_mul, ← pow_succ]
    _ ≤ (10 ^ 28) ^ 11 * 10 := Nat.mul_le_mul (Nat.pow_le_pow_left (by norm_num) 11) (by omega)
    _ = 10 ^ 309 := by rw [← pow_mul, ← pow_succ]

/-- **The numbers that are rounded to infinity** are those from `overflowBound` on. -/
theorem RoundsTo.overflow_iff (h : RoundsTo x v) : 2 ^ 1024 ≤ |v| ↔ overflowBound ≤ |x| := by
  have hpow : (2 : ℚ) ^ 1024 = 2 ^ 54 * 2 ^ 970 := by rw [← pow_add]
  have hbound : (overflowBound : ℚ) = (2 ^ 54 - 1) * 2 ^ 970 := by
    rw [cast_overflowBound, hpow, sub_mul, one_mul]
  rw [hbound, hpow, h.pow_le_abs_iff]

/-- **A scaled number overflows just if it is beyond the bound.** Powers of ten that decide this
alone are not computed. -/
theorem overflowsScaled_iff {n digits : ℕ} (hn : n < 10 ^ digits) (e : ℤ) :
    overflowsScaled n digits e ↔ (overflowBound : ℚ) ≤ n * 10 ^ e := by
  have hpos := overflowBound_pos
  have hpow := overflowBound_le_pow
  unfold overflowsScaled
  generalize overflowBound = bound at *
  split
  · rename_i hzero
    simp [hzero, hpos.ne']
  · rename_i hzero
    split
    · rename_i k
      have hcast : (bound : ℚ) ≤ n * 10 ^ k ↔ bound ≤ n * 10 ^ k := by exact_mod_cast Iff.rfl
      simp only [Int.ofNat_eq_natCast, zpow_natCast, Nat.pow_eq, Bool.or_eq_true, decide_eq_true_eq]
      rw [hcast, or_iff_right_iff_imp]
      intro hk
      calc bound ≤ 1 * 10 ^ 309 := by omega
        _ ≤ n * 10 ^ k :=
          Nat.mul_le_mul (Nat.one_le_iff_ne_zero.2 hzero) (Nat.pow_le_pow_right (by omega) hk)
    · rename_i k
      have hcast : (bound : ℚ) ≤ n * 10 ^ Int.negSucc k ↔ bound * 10 ^ (k + 1) ≤ n := by
        rw [zpow_negSucc, ← div_eq_mul_inv, le_div_iff₀ (by positivity)]
        exact_mod_cast Iff.rfl
      simp only [Nat.pow_eq, Bool.and_eq_true, decide_eq_true_eq]
      rw [hcast, and_iff_right_iff_imp]
      intro hle
      -- a number that is large enough has more digits than are cut off
      have hlt : 10 ^ (k + 1) < 10 ^ digits :=
        calc 10 ^ (k + 1) ≤ bound * 10 ^ (k + 1) := Nat.le_mul_of_pos_left _ hpos
          _ ≤ n := hle
          _ < 10 ^ digits := hn
      exact Nat.lt_of_succ_lt ((Nat.pow_lt_pow_iff_right (by omega)).1 hlt)

end TrafficSchema.Double
