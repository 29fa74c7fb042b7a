import Mathlib.Data.List.TakeWhile
import TrafficSchema.Proofs.Scalar.Infer

/-!
# What a timestamp is

The two steps in which a timestamp is recognised accept different texts. The form admits digits of
all scripts but fixes how many there are; the reader admits shorter numbers but takes only ASCII
digits. What passes both is a moment, each of its numbers written with ASCII digits to its full
width, then a fraction or nothing, then `Z` or nothing (`isTimestamp_iff`).

A timestamp is neither a numeral nor a truth value, so that it is always tagged as what it is
(`Tag.infer_eq_datetime_iff`).
-/

namespace TrafficSchema

/-! ## Numbers of a fixed width -/

/-- A number with zeros in front of it, up to a width. -/
def padded (width n : ℕ) : List Char := (Nat.toDigits 10 n).leftpad width '0'

theorem isDigit_of_mem_padded {width n : ℕ} {c : Char} (h : c ∈ padded width n) : c.isDigit := by
  rw [padded, List.leftpad, List.mem_append] at h
  rcases h with h | h
  · rw [List.eq_of_mem_replicate h]
    rfl
  · exact Nat.isDigit_of_mem_toDigits (by decide) (by decide) h

theorem length_padded {width n : ℕ} (hwidth : 0 < width) (h : n < 10 ^ width) :
    (padded width n).length = width := by
  rw [padded, List.length_leftpad]
  exact max_eq_left ((Nat.length_toDigits_le_iff (by decide) hwidth).2 h)

theorem digitsValue_padded (width n : ℕ) : digitsValue (padded width n) = n := by
  rw [digitsValue_eq, padded, List.leftpad, Nat.ofDigitChars_append,
    Nat.ofDigitChars_replicate_zero, mul_zero, Nat.ofDigitChars_ten_toDigits]

/-- Digits of the same length are the same if they stand for the same number. -/
theorem eq_of_digitsValue_eq {ds es : List Char} (hds : ∀ c ∈ ds, c.isDigit)
    (hes : ∀ c ∈ es, c.isDigit) (hlength : ds.length = es.length)
    (hvalue : digitsValue ds = digitsValue es) : ds = es := by
  induction ds using List.reverseRecOn generalizing es with
  | nil => exact (List.length_eq_zero_iff.1 hlength.symm).symm
  | append_singleton ds c ih =>
    obtain rfl | ⟨es, d, rfl⟩ := List.eq_nil_or_concat' es
    · simp at hlength
    have hc := Char.isDigit_iff_toNat.1 (hds c (by simp))
    have hd := Char.isDigit_iff_toNat.1 (hes d (by simp))
    have hnine : '9'.toNat = '0'.toNat + 9 := rfl
    simp only [digitsValue_append, List.length_singleton, pow_one] at hvalue
    simp only [digitsValue, List.foldl_cons, List.foldl_nil] at hvalue ih
    have hlast : c = d := Char.toNat_inj.1 (by omega)
    have hfront : ds = es := by
      refine ih (fun x hx => hds x (by simp [hx])) (fun x hx => hes x (by simp [hx])) ?_ (by omega)
      simpa using hlength
    rw [hlast, hfront]

theorem eq_padded {ds : List Char} (hne : ds ≠ []) (hds : ∀ c ∈ ds, c.isDigit) :
    ds = padded ds.length (digitsValue ds) := by
  have hlength := length_padded (List.length_pos_iff.2 hne) (digitsValue_lt hds)
  exact eq_of_digitsValue_eq hds (fun _ => isDigit_of_mem_padded) hlength.symm
    (digitsValue_padded ..).symm

namespace Moment

/-! ## Moments as they are written -/

/-- The lengths of the months of a year without a leap day. -/
def commonMonths : List ℕ := [31, 28, 31, 30, 31, 30, 31, 31, 30, 31, 30, 31]

/-- A day of the Gregorian calendar and a time on it, the second perhaps a leap second. A year has
a leap day if it is a multiple of four, but of 100 only if also of 400. -/
structure Occurs (m : Moment) : Prop where
  year_le : m.year ≤ 9999
  one_le_month : 1 ≤ m.month
  month_le : m.month ≤ 12
  one_le_day : 1 ≤ m.day
  day_le : m.day ≤ commonMonths.getD (m.month - 1) 0 +
    if m.month = 2 ∧ 4 ∣ m.year ∧ (100 ∣ m.year → 400 ∣ m.year) then 1 else 0
  hour_le : m.hour ≤ 23
  minute_le : m.minute ≤ 59
  second_le : m.second ≤ 60

/-- Numbers with what stands between them in a timestamp, and what follows. -/
def join (year month day hour minute second rest : List Char) : List Char :=
  year ++ '-' :: (month ++ '-' :: (day ++ 'T' ::
    (hour ++ ':' :: (minute ++ ':' :: (second ++ rest)))))

/-- A moment as it is written in a timestamp, and what follows. -/
def text (m : Moment) (rest : List Char) : List Char :=
  join (padded 4 m.year) (padded 2 m.month) (padded 2 m.day) (padded 2 m.hour) (padded 2 m.minute)
    (padded 2 m.second) rest

/-- A point with ASCII digits after it, or nothing. -/
def IsFraction (cs : List Char) : Prop :=
  cs = [] ∨ ∃ ds, ds ≠ [] ∧ (∀ c ∈ ds, c.isDigit) ∧ cs = '.' :: ds

theorem IsFraction.isDigit_or_eq {cs : List Char} (h : IsFraction cs) {c : Char} (hc : c ∈ cs) :
    c.isDigit ∨ c = '.' := by
  obtain rfl | ⟨ds, -, hds, rfl⟩ := h
  · cases hc
  · rcases List.mem_cons.1 hc with rfl | hc
    · exact .inr rfl
    · exact .inl (hds c hc)

theorem daysIn_eq {month : ℕ} (year : ℕ) (hpos : 1 ≤ month) (hle : month ≤ 12) :
    Calendar.daysIn year month = commonMonths.getD (month - 1) 0 +
      if month = 2 ∧ 4 ∣ year ∧ (100 ∣ year → 400 ∣ year) then 1 else 0 := by
  have hleap : Calendar.isLeap year ↔ 4 ∣ year ∧ (100 ∣ year → 400 ∣ year) := by
    simp only [Calendar.isLeap, Bool.and_eq_true, Bool.or_eq_true, beq_iff_eq, bne_iff_ne]
    omega
  simp only [Calendar.daysIn, hleap]
  interval_cases month <;> simp [commonMonths]
  split <;> rfl

theorem occurs_iff {m : Moment} : m.Occurs ↔ m.year ≤ 9999 ∧ m.isValid := by
  simp only [isValid, Calendar.isDate, Calendar.isTime, Bool.and_eq_true, decide_eq_true_eq]
  constructor
  · intro h
    rw [daysIn_eq m.year h.one_le_month h.month_le]
    exact ⟨h.year_le, ⟨⟨⟨h.one_le_month, h.month_le⟩, h.one_le_day⟩, h.day_le⟩,
      ⟨h.hour_le, h.minute_le⟩, h.second_le⟩
  · rintro ⟨hyear, ⟨⟨⟨hmonth, hmonth'⟩, hday⟩, hday'⟩, ⟨hhour, hminute⟩, hsecond⟩
    rw [daysIn_eq m.year hmonth hmonth'] at hday'
    exact ⟨hyear, hmonth, hmonth', hday, hday', hhour, hminute, hsecond⟩

/-! ## Reading -/

/-- A text is a number of at most a certain width, without a sign. -/
structure IsNumber (width n : ℕ) (ds : List Char) : Prop where
  ne_nil : ds ≠ []
  length_le : ds.length ≤ width
  isDigit : ∀ c ∈ ds, c.isDigit
  value : digitsValue ds = n

theorem IsNumber.lt {width n : ℕ} {ds : List Char} (h : IsNumber width n ds) : n < 10 ^ width :=
  h.value ▸ (digitsValue_lt h.isDigit).trans_le (Nat.pow_le_pow_right (by decide) h.length_le)

theorem IsNumber.eq_padded {width n : ℕ} {ds : List Char} (h : IsNumber width n ds)
    (hfull : ds.length = width) : ds = padded width n := by
  rw [← hfull, ← h.value]
  exact TrafficSchema.eq_padded h.ne_nil h.isDigit

theorem isNumber_padded {width n : ℕ} (hwidth : 0 < width) (h : n < 10 ^ width) :
    IsNumber width n (padded width n) where
  ne_nil := List.length_pos_iff.1 (hwidth.trans_eq (length_padded hwidth h).symm)
  length_le := (length_padded hwidth h).le
  isDigit _ := isDigit_of_mem_padded
  value := digitsValue_padded width n

/-- The numbers of a moment as they may be read, with no more digits than in a timestamp. -/
structure Writing (m : Moment) where
  year : List Char
  month : List Char
  day : List Char
  hour : List Char
  minute : List Char
  second : List Char
  isYear : IsNumber 4 m.year year
  isMonth : IsNumber 2 m.month month
  isDay : IsNumber 2 m.day day
  isHour : IsNumber 2 m.hour hour
  isMinute : IsNumber 2 m.minute minute
  isSecond : IsNumber 2 m.second second

namespace Writing

variable {m : Moment} (w : m.Writing)

def text (rest : List Char) : List Char := join w.year w.month w.day w.hour w.minute w.second rest

/-- All numbers have as many digits as in a timestamp. -/
structure IsFull : Prop where
  year : w.year.length = 4
  month : w.month.length = 2
  day : w.day.length = 2
  hour : w.hour.length = 2
  minute : w.minute.length = 2
  second : w.second.length = 2

variable {w}

theorem IsFull.text_eq (h : w.IsFull) : w.text = m.text := by
  funext rest
  rw [text, w.isYear.eq_padded h.year, w.isMonth.eq_padded h.month, w.isDay.eq_padded h.day,
    w.isHour.eq_padded h.hour, w.isMinute.eq_padded h.minute, w.isSecond.eq_padded h.second]
  rfl

end Writing

/-- The numbers of a moment are no greater than there is room for in a timestamp. -/
structure Fits (m : Moment) : Prop where
  year : m.year < 10 ^ 4
  month : m.month < 10 ^ 2
  day : m.day < 10 ^ 2
  hour : m.hour < 10 ^ 2
  minute : m.minute < 10 ^ 2
  second : m.second < 10 ^ 2

theorem Writing.fits {m : Moment} (w : m.Writing) : m.Fits :=
  ⟨w.isYear.lt, w.isMonth.lt, w.isDay.lt, w.isHour.lt, w.isMinute.lt, w.isSecond.lt⟩

/-- A moment is written out in full. -/
def Fits.writing {m : Moment} (h : m.Fits) : m.Writing where
  year := padded 4 m.year
  month := padded 2 m.month
  day := padded 2 m.day
  hour := padded 2 m.hour
  minute := padded 2 m.minute
  second := padded 2 m.second
  isYear := isNumber_padded (by decide) h.year
  isMonth := isNumber_padded (by decide) h.month
  isDay := isNumber_padded (by decide) h.day
  isHour := isNumber_padded (by decide) h.hour
  isMinute := isNumber_padded (by decide) h.minute
  isSecond := isNumber_padded (by decide) h.second

theorem Fits.isFull_writing {m : Moment} (h : m.Fits) : h.writing.IsFull where
  year := length_padded (by decide) h.year
  month := length_padded (by decide) h.month
  day := length_padded (by decide) h.day
  hour := length_padded (by decide) h.hour
  minute := length_padded (by decide) h.minute
  second := length_padded (by decide) h.second

/-- What is read as a number is one. -/
theorem isNumber_of_number? {width n : ℕ} {cs rest : List Char}
    (h : number? width cs = some (n, rest)) : ∃ ds, IsNumber width n ds ∧ cs = ds ++ rest := by
  simp only [number?, ite_eq_iff] at h
  obtain ⟨-, ⟨⟩⟩ | ⟨hne, h⟩ := h
  simp only [Option.some.injEq, Prod.mk.injEq] at h
  obtain ⟨rfl, rfl⟩ := h
  have hprefix : (cs.take width).takeWhile Char.isDigit <+: cs :=
    (List.takeWhile_prefix _).trans (List.take_prefix _ _)
  refine ⟨_, ⟨hne, ?_, fun c hc => List.mem_takeWhile_imp hc, rfl⟩, ?_⟩
  · exact (List.takeWhile_prefix _).length_le.trans (List.length_take_le _ _)
  · exact (List.prefix_iff_eq_append.1 hprefix).symm

/-- A number is read to its full width where there are that many digits, or to the end. -/
theorem number?_eq_some {width : ℕ} {cs : List Char} (hne : cs.take width ≠ [])
    (h : ∀ c ∈ cs.take width, c.isDigit) :
    number? width cs = some (digitsValue (cs.take width), cs.drop width) := by
  have hdigits : (cs.take width).takeWhile Char.isDigit = cs.take width :=
    List.takeWhile_eq_self_iff.2 h
  have hdrop : cs.drop (cs.take width).length = cs.drop width := by
    rcases le_total width cs.length with hle | hle
    · rw [List.length_take_of_le hle]
    · rw [List.take_of_length_le hle, List.drop_length, List.drop_of_length_le hle]
  simp only [number?, hdigits, if_neg hne, hdrop]

theorem number?_padded {width n : ℕ} (hwidth : 0 < width) (h : n < 10 ^ width) (rest : List Char) :
    number? width (padded width n ++ rest) = some (n, rest) := by
  have hlength := length_padded hwidth h
  have htake : (padded width n ++ rest).take width = padded width n := List.take_left' hlength
  rw [number?_eq_some, htake, digitsValue_padded, List.drop_left' hlength]
  · rw [htake]
    exact List.length_pos_iff.1 (hwidth.trans_eq hlength.symm)
  · rw [htake]
    exact fun c => isDigit_of_mem_padded

theorem literal?_eq_some {c : Char} {cs rest : List Char} :
    literal? c cs = some rest ↔ cs = c :: rest := by
  cases cs with
  | nil => simp [literal?]
  | cons d cs =>
    simp only [literal?, ite_eq_iff, List.cons.injEq]
    simp

theorem fraction?_eq_some_nil {cs : List Char} : fraction? cs = some [] ↔ IsFraction cs := by
  unfold fraction?
  split
  · rename_i ds
    simp only [Option.map_eq_some_iff, Prod.exists, List.dropWhile_eq_nil_iff]
    constructor
    · rintro ⟨n, rest, hnumber, hrest⟩
      obtain ⟨es, hes, rfl⟩ := isNumber_of_number? hnumber
      refine .inr ⟨es ++ rest, by simp [hes.ne_nil], fun c hc => ?_, rfl⟩
      exact (List.mem_append.1 hc).elim (hes.isDigit c) (hrest c)
    · rintro (⟨⟨⟩⟩ | ⟨ds', hne, hds, heq⟩)
      obtain rfl : ds = ds' := (List.cons.inj heq).2
      have htake : ds.take 9 ≠ [] := by simpa using hne
      exact ⟨_, _, number?_eq_some htake fun c hc => hds c (List.mem_of_mem_take hc),
        fun c hc => hds c (List.mem_of_mem_drop hc)⟩
  · rename_i hpoint
    simp only [Option.some.injEq, IsFraction, iff_self_or]
    rintro ⟨ds, -, -, heq⟩
    exact (hpoint ds heq).elim

/-- **What is read as a moment is a writing of it**, with a fraction or nothing behind it. -/
theorem read?_eq_some {cs : List Char} {m : Moment} (h : read? cs = some m) :
    ∃ (w : m.Writing) (fraction : List Char), IsFraction fraction ∧ cs = w.text fraction := by
  simp only [read?, Option.bind_eq_bind, Option.bind_eq_some_iff, Prod.exists, literal?_eq_some,
    Option.ite_none_right_eq_some, Option.some.injEq] at h
  obtain ⟨_, _, h₁, _, rfl, _, _, h₂, _, rfl, _, _, h₃, _, rfl, _, _, h₄, _, rfl, _, _, h₅, _, rfl,
    _, _, h₆, _, hfraction, rfl, rfl⟩ := h
  obtain ⟨year, hyear, rfl⟩ := isNumber_of_number? h₁
  obtain ⟨month, hmonth, rfl⟩ := isNumber_of_number? h₂
  obtain ⟨day, hday, rfl⟩ := isNumber_of_number? h₃
  obtain ⟨hour, hhour, rfl⟩ := isNumber_of_number? h₄
  obtain ⟨minute, hminute, rfl⟩ := isNumber_of_number? h₅
  obtain ⟨second, hsecond, rfl⟩ := isNumber_of_number? h₆
  exact ⟨⟨year, month, day, hour, minute, second, hyear, hmonth, hday, hhour, hminute, hsecond⟩, _,
    fraction?_eq_some_nil.1 hfraction, rfl⟩

theorem Occurs.fits {m : Moment} (h : m.Occurs) : m.Fits := by
  have hday : m.day ≤ 31 := by
    refine h.day_le.trans ?_
    rw [← daysIn_eq m.year h.one_le_month h.month_le, Calendar.daysIn]
    split_ifs <;> omega
  have := h.year_le
  have := h.month_le
  have := h.hour_le
  have := h.minute_le
  have := h.second_le
  constructor <;> omega

/-- **A moment written in full is read as itself.** -/
theorem Fits.read?_text {m : Moment} (h : m.Fits) {fraction : List Char}
    (hfraction : IsFraction fraction) : read? (m.text fraction) = some m := by
  have hliteral (c : Char) (cs : List Char) : literal? c (c :: cs) = some cs :=
    literal?_eq_some.2 rfl
  simp only [read?, text, join, Option.bind_eq_bind, Option.bind_some, hliteral,
    number?_padded (by decide) h.year, number?_padded (by decide) h.month,
    number?_padded (by decide) h.day, number?_padded (by decide) h.hour,
    number?_padded (by decide) h.minute, number?_padded (by decide) h.second,
    fraction?_eq_some_nil.2 hfraction, if_true]

end Moment

namespace Timestamp

/-! ## Form -/

theorem afterOutline?_cons {c : Char} (hc : c ≠ '0') (form cs : List Char) :
    afterOutline? (c :: form) (c :: cs) = afterOutline? form cs := by
  simp [afterOutline?, hc]

/-- A number has to have as many digits as the form. -/
theorem afterOutline?_append {width : ℕ} {ds rest : List Char} (form : List Char)
    (hlength : ds.length ≤ width) (hds : ∀ c ∈ ds, c.isDigit)
    (hrest : ∀ c ∈ rest.head?, ¬ Text.isDecimalDigit c) :
    afterOutline? (List.replicate width '0' ++ form) (ds ++ rest) =
      if ds.length = width then afterOutline? form rest else none := by
  induction ds generalizing width with
  | nil =>
    cases width with
    | zero => simp
    | succ width =>
      cases rest with
      | nil => simp [List.replicate_succ, afterOutline?]
      | cons c rest =>
        have hc := hrest c rfl
        simp [List.replicate_succ, afterOutline?, hc]
  | cons d ds ih =>
    cases width with
    | zero => simp at hlength
    | succ width =>
      have hd : Text.isDecimalDigit d := isDecimalDigit_of_isDigit (hds d (by simp))
      have ih := @ih width (by simpa using hlength) fun c hc => hds c (by simp [hc])
      simp [List.replicate_succ, afterOutline?, hd, ih]

theorem afterOutline?_number {width : ℕ} {n : ℕ} {ds : List Char} (h : Moment.IsNumber width n ds)
    {c : Char} (hc : ¬ Text.isDecimalDigit c) (form rest t : List Char) :
    afterOutline? (List.replicate width '0' ++ c :: form) (ds ++ c :: rest) = some t ↔
      ds.length = width ∧ afterOutline? form rest = some t := by
  have hzero : c ≠ '0' := by
    rintro rfl
    exact hc (by decide)
  have hrest : ∀ d ∈ (c :: rest).head?, ¬ Text.isDecimalDigit d := by simpa using hc
  rw [afterOutline?_append _ h.length_le h.isDigit hrest, afterOutline?_cons hzero]
  split <;> simp [*]

/-- A moment has the form of a timestamp just if it is written in full. -/
theorem afterOutline?_text {m : Moment} (w : m.Writing) {rest t : List Char}
    (hrest : ∀ c ∈ rest.head?, ¬ Text.isDecimalDigit c) :
    afterOutline? outline (w.text rest) = some t ↔ w.IsFull ∧ rest = t := by
  have houtline : outline = List.replicate 4 '0' ++ '-' :: (List.replicate 2 '0' ++ '-' ::
    (List.replicate 2 '0' ++ 'T' :: (List.replicate 2 '0' ++ ':' :: (List.replicate 2 '0' ++ ':' ::
      (List.replicate 2 '0' ++ []))))) := rfl
  have hsecond := afterOutline?_append [] w.isSecond.length_le w.isSecond.isDigit hrest
  rw [houtline, Moment.Writing.text, Moment.join, afterOutline?_number w.isYear (by decide),
    afterOutline?_number w.isMonth (by decide), afterOutline?_number w.isDay (by decide),
    afterOutline?_number w.isHour (by decide), afterOutline?_number w.isMinute (by decide), hsecond]
  simp only [afterOutline?, Option.ite_none_right_eq_some, Option.some.injEq]
  constructor
  · rintro ⟨hyear, hmonth, hday, hhour, hminute, hsecond, hrest⟩
    exact ⟨⟨hyear, hmonth, hday, hhour, hminute, hsecond⟩, hrest⟩
  · rintro ⟨h, hrest⟩
    exact ⟨h.year, h.month, h.day, h.hour, h.minute, h.second, hrest⟩

/-! ## What follows a moment -/

/-- `Z`, or nothing. -/
def IsZulu (cs : List Char) : Prop := cs = [] ∨ cs = ['Z']

variable {fraction zulu : List Char}

theorem IsZulu.eq_of_mem (h : IsZulu zulu) {c : Char} (hc : c ∈ zulu) : c = 'Z' := by
  obtain rfl | rfl := h
  · cases hc
  · exact List.mem_singleton.1 hc

theorem IsZulu.not_isDecimalDigit (h : IsZulu zulu) {c : Char} (hc : c ∈ zulu.head?) :
    ¬ Text.isDecimalDigit c := by
  rw [h.eq_of_mem (List.mem_of_mem_head? hc)]
  decide

theorem isTail_append (hfraction : Moment.IsFraction fraction) (hzulu : IsZulu zulu) :
    isTail (fraction ++ zulu) := by
  obtain rfl | ⟨ds, hne, hds, rfl⟩ := hfraction
  · obtain rfl | rfl := hzulu <;> decide
  · have hspan := Text.span_append Text.isDecimalDigit zulu
      (fun c hc => isDecimalDigit_of_isDigit (hds c hc)) fun c => hzulu.not_isDecimalDigit
    simp only [isTail, List.cons_append, hspan]
    obtain rfl | rfl := hzulu <;> simp [hne]

theorem not_isDecimalDigit_head? (hfraction : Moment.IsFraction fraction) (hzulu : IsZulu zulu) :
    ∀ c ∈ (fraction ++ zulu).head?, ¬ Text.isDecimalDigit c := by
  obtain rfl | ⟨ds, -, -, rfl⟩ := hfraction
  · exact fun c => hzulu.not_isDecimalDigit
  · intro c hc
    obtain rfl : '.' = c := by simpa using hc
    decide

theorem exists_zulu (cs : List Char) : ∃ zulu, IsZulu zulu ∧ cs = dropZulu cs ++ zulu := by
  unfold dropZulu
  split
  · rename_i hlast
    exact ⟨['Z'], .inr rfl, (List.dropLast_append_getLast? 'Z' hlast).symm⟩
  · exact ⟨[], .inl rfl, (List.append_nil cs).symm⟩

theorem dropZulu_append {cs : List Char} (hcs : 'Z' ∉ cs) (hzulu : IsZulu zulu) :
    dropZulu (cs ++ zulu) = cs := by
  obtain rfl | rfl := hzulu
  · have hlast : cs.getLast? ≠ some 'Z' := fun h => hcs (List.mem_of_getLast? h)
    rw [List.append_nil, dropZulu, if_neg hlast]
  · rw [dropZulu, if_pos List.getLast?_concat, List.dropLast_concat]

end Timestamp

/-! ## Timestamps -/

open Timestamp Moment

theorem Moment.text_append (m : Moment) (rest after : List Char) :
    m.text (rest ++ after) = m.text rest ++ after := by
  simp [text, join]

theorem Moment.mem_text {m : Moment} {rest : List Char} {c : Char} (h : c ∈ m.text rest) :
    c.isDigit ∨ c ∈ ['-', 'T', ':'] ∨ c ∈ rest := by
  simp only [text, join, List.mem_append, List.mem_cons] at h
  have hdigit {width n : ℕ} (hc : c ∈ padded width n) : c.isDigit := isDigit_of_mem_padded hc
  have : c ∈ ['-', 'T', ':'] ↔ c = '-' ∨ c = 'T' ∨ c = ':' := by simp
  tauto

/-- **What passes both the form and the reader is a moment written in full.** -/
theorem isTimestamp_iff (value : String) :
    isTimestamp value ↔ ∃ (m : Moment) (fraction zulu : List Char),
      m.Occurs ∧ IsFraction fraction ∧ IsZulu zulu ∧
        value.toList = m.text (fraction ++ zulu) := by
  simp only [isTimestamp, hasForm, Bool.and_eq_true, Option.any_eq_true]
  constructor
  · rintro ⟨⟨tail, houtline, -⟩, m, hread, hvalid⟩
    obtain ⟨zulu, hzulu, htext⟩ := exists_zulu value.toList
    obtain ⟨w, fraction, hfraction, hdrop⟩ := read?_eq_some hread
    have htext' : value.toList = w.text (fraction ++ zulu) := by
      rw [htext, hdrop]
      simp [Writing.text, join]
    rw [htext', afterOutline?_text w (not_isDecimalDigit_head? hfraction hzulu)] at houtline
    have hyear := w.fits.year
    exact ⟨m, fraction, zulu, occurs_iff.2 ⟨by omega, hvalid⟩, hfraction, hzulu,
      htext'.trans (congrFun houtline.1.text_eq _)⟩
  · rintro ⟨m, fraction, zulu, hm, hfraction, hzulu, htext⟩
    have hzulu' : 'Z' ∉ m.text fraction := by
      intro hmem
      rcases mem_text hmem with h | h | h
      · exact absurd h (by decide)
      · exact absurd h (by decide)
      · rcases hfraction.isDigit_or_eq h with h | h <;> exact absurd h (by decide)
    have houtline := (afterOutline?_text hm.fits.writing (t := fraction ++ zulu)
      (not_isDecimalDigit_head? hfraction hzulu)).2 ⟨hm.fits.isFull_writing, rfl⟩
    rw [hm.fits.isFull_writing.text_eq, ← htext] at houtline
    refine ⟨⟨_, houtline, isTail_append hfraction hzulu⟩, m, ?_, (occurs_iff.1 hm).2⟩
    rw [htext, text_append, dropZulu_append hzulu' hzulu, hm.fits.read?_text hfraction]

/-- A date is not a numeral: a hyphen follows its year. -/
theorem Numeral.not_hasForm_of_hyphen {ds : List Char} (hne : ds ≠ [])
    (hds : ∀ c ∈ ds, c.isDigit) (rest : List Char) :
    hasIntegerForm (ds ++ '-' :: rest) = false ∧ hasDecimalForm (ds ++ '-' :: rest) = false := by
  have hsign : splitSign (ds ++ '-' :: rest) = (false, ds ++ '-' :: rest) := by
    have hhead : ∀ c ∈ (ds ++ '-' :: rest).head?, c ≠ '+' ∧ c ≠ '-' := by
      rw [List.head?_append_of_ne_nil ds hne]
      exact fun c hc => not_sign_of_isDigit (hds c (List.mem_of_mem_head? hc))
    exact splitSign_text Sign.none hhead
  have hspan := Text.span_append Text.isDecimalDigit ('-' :: rest)
    (fun c hc => isDecimalDigit_of_isDigit (hds c hc)) (by simp; decide)
  have hhyphen : Text.isDecimalDigit '-' = false := by decide
  constructor
  · simp [hasIntegerForm, hsign, hhyphen]
  · simp [hasDecimalForm, Numeral.split, hsign, hspan, hasExponentForm]

namespace Tag

theorem trim_of_isTimestamp {value : String} (h : isTimestamp value) :
    Text.trim value.toList = value.toList := by
  obtain ⟨m, fraction, zulu, -, hfraction, hzulu, htext⟩ := (isTimestamp_iff value).1 h
  have hblank : ∀ c ∈ value.toList, ¬ Text.isBlank c := by
    intro c hc
    rw [htext] at hc
    rcases mem_text hc with hc | hc | hc
    · exact Text.not_isBlank_of_isDigit hc
    · simp only [List.mem_cons, List.not_mem_nil, or_false] at hc
      obtain rfl | rfl | rfl := hc <;> decide
    · rcases List.mem_append.1 hc with hc | hc
      · rcases hfraction.isDigit_or_eq hc with hc | rfl
        · exact Text.not_isBlank_of_isDigit hc
        · decide
      · rw [hzulu.eq_of_mem hc]
        decide
  have htrim : Text.trim ([] ++ value.toList ++ []) = value.toList :=
    Text.trim_append (by simp) hblank (by simp)
  simpa using htrim

theorem isTruthValue_of_hyphen {cs : List Char} (h : '-' ∈ cs) : isTruthValue cs = false := by
  have hlower : '-' ∈ cs.map Char.toLower := List.mem_map_of_mem h
  simp only [isTruthValue, Bool.or_eq_false_iff, beq_eq_false_iff_ne]
  constructor
  · intro heq
    exact absurd (heq ▸ hlower) (by decide)
  · intro heq
    exact absurd (heq ▸ hlower) (by decide)

/-- A timestamp passes none of the tests that are tried before. -/
theorem infer_of_isTimestamp {value : String} (h : isTimestamp value) : infer value = datetime := by
  obtain ⟨m, fraction, zulu, hm, -, -, htext⟩ := (isTimestamp_iff value).1 h
  have hyear : padded 4 m.year ≠ [] := (isNumber_padded (by decide) hm.fits.year).ne_nil
  have hforms := Numeral.not_hasForm_of_hyphen hyear (fun _ => isDigit_of_mem_padded)
  have hhyphen : '-' ∈ value.toList := by
    rw [htext]
    simp [Moment.text, Moment.join]
  have hempty : value ≠ "" := by
    rintro rfl
    cases hhyphen
  simp only [infer, if_neg hempty, trim_of_isTimestamp h, isTruthValue_of_hyphen hhyphen, if_pos h]
  rw [htext, Moment.text, Moment.join, (hforms _).1, (hforms _).2]
  rfl

/-- **Just the timestamps are tagged as such**, and a timestamp is a moment that occurs, written
in full and in ASCII digits, then a fraction or nothing, then `Z` or nothing. -/
theorem infer_eq_datetime_iff (value : String) :
    (infer value = datetime ↔ isTimestamp value) ∧
    (isTimestamp value ↔ ∃ (m : Moment) (fraction zulu : List Char),
      m.Occurs ∧ IsFraction fraction ∧ IsZulu zulu ∧
        value.toList = m.text (fraction ++ zulu)) := by
  refine ⟨⟨fun h => ?_, infer_of_isTimestamp⟩, isTimestamp_iff value⟩
  simp only [infer] at h
  split_ifs at h with hempty hinteger hdecimal htruth htimestamp
  · exact absurd (h ▸ ofInteger_mem _) (by decide)
  · exact absurd (h ▸ ofDecimal_mem _) (by decide)
  · exact htimestamp

example : infer "0000-02-29T23:59:60.0123456789Z" = datetime := by decide +kernel

end Tag

end TrafficSchema
