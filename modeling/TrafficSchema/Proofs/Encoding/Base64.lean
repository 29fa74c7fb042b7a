import TrafficSchema.Encoding.Base64
import TrafficSchema.Proofs.Encoding.Utf8

/-!
# Encoding in base64

`Base64.encode` writes bytes in the standard alphabet, three bytes as four digits (`Base64.group`).
The digits that one or two bytes at the end do not need are replaced by padding. A text is read by
`Base64.decode?` just if it is what some bytes are encoded to (`Base64.decode?_eq_some_iff`).
-/

namespace TrafficSchema.Base64

/-! ## Digits -/

/-- The digit with a value. -/
def digit (n : Nat) : Char :=
  if n < 26 then .ofNat ('A'.toNat + n)
  else if n < 52 then .ofNat ('a'.toNat + (n - 26))
  else if n < 62 then .ofNat ('0'.toNat + (n - 52))
  else if n = 62 then '+'
  else '/'

example : String.ofList ((List.range 64).map digit) =
    "ABCDEFGHIJKLMNOPQRSTUVWXYZabcdefghijklmnopqrstuvwxyz0123456789+/" := by decide

theorem digit?_digit {n : Nat} (h : n < 64) : digit? (digit n) = some n := by
  revert n
  decide

theorem digit_inj {m n : Nat} (hm : m < 64) (hn : n < 64) : digit m = digit n ↔ m = n := by
  refine ⟨fun h => ?_, congrArg digit⟩
  have hvalue := congrArg digit? h
  rwa [digit?_digit hm, digit?_digit hn, Option.some.injEq] at hvalue

theorem digit_ne_pad {n : Nat} (h : n < 64) : digit n ≠ '=' := by
  revert n
  decide

/-- Only ASCII characters are digits. -/
theorem digit?_eq_none {c : Char} (hc : 128 ≤ c.toNat) : digit? c = none := by
  have hlt {d : Char} (hd : d.toNat < 128) : ¬ c ≤ d := fun h =>
    absurd (UInt32.le_iff_toNat_le.1 h) (Nat.not_le.2 (Nat.lt_of_lt_of_le hd hc))
  have hne {d : Char} (hd : d.toNat < 128) : c ≠ d := fun h => hlt hd (h ▸ UInt32.le_refl c.val)
  have hdigit : ¬ c.isDigit := fun h =>
    absurd (Nat.le_trans hc (Char.isDigit_iff_toNat.1 h).2) (by decide)
  rw [digit?, if_neg fun h => hlt (by decide) h.2, if_neg fun h => hlt (by decide) h.2,
    if_neg hdigit, if_neg (hne (by decide)), if_neg (hne (by decide))]

theorem digit_of_digit? {c : Char} {n : Nat} (h : digit? c = some n) : n < 64 ∧ digit n = c := by
  have hascii {c : Char} (hc : c.toNat < 128) : ∀ n ∈ digit? c, n < 64 ∧ digit n = c :=
    Utf8.forall_of_toNat_lt (p := fun c => ∀ n ∈ digit? c, n < 64 ∧ digit n = c) (by decide) hc
  rcases Nat.lt_or_ge c.toNat 128 with hc | hc
  · exact hascii hc n h
  · rw [digit?_eq_none hc] at h
    cases h

/-! ## Groups of digits -/

/-- The digits of three bytes. -/
def group (x y z : UInt8) : List Char :=
  let n := x.toNat * 65536 + y.toNat * 256 + z.toNat
  [digit (n / 262144), digit (n / 4096 % 64), digit (n / 64 % 64), digit (n % 64)]

/-- **Four digits stand for just the three bytes that they are the digits of.** -/
theorem bytes?_eq_some_iff {a b c d : Char} {x y z : UInt8} :
    bytes? a b c d = some (x, y, z) ↔ [a, b, c, d] = group x y z := by
  have hx := x.toNat_lt
  have hy := y.toNat_lt
  have hz := z.toNat_lt
  simp only [group]
  generalize hn : x.toNat * 65536 + y.toNat * 256 + z.toNat = n
  constructor
  · intro h
    simp only [bytes?, Option.bind_eq_bind, Option.bind_eq_some_iff, Option.pure_def,
      Option.some.injEq, Prod.mk.injEq, UInt8.ofNat_eq_iff_mod_eq_toNat] at h
    obtain ⟨i, hi, j, hj, k, hk, l, hl, hx', hy', hz'⟩ := h
    obtain ⟨hi, rfl⟩ := digit_of_digit? hi
    obtain ⟨hj, rfl⟩ := digit_of_digit? hj
    obtain ⟨hk, rfl⟩ := digit_of_digit? hk
    obtain ⟨hl, rfl⟩ := digit_of_digit? hl
    obtain rfl : i = n / 262144 := by omega
    obtain rfl : j = n / 4096 % 64 := by omega
    obtain rfl : k = n / 64 % 64 := by omega
    obtain rfl : l = n % 64 := by omega
    rfl
  · intro h
    simp only [List.cons.injEq, and_true] at h
    obtain ⟨rfl, rfl, rfl, rfl⟩ := h
    have hvalue : ((n / 262144 * 64 + n / 4096 % 64) * 64 + n / 64 % 64) * 64 + n % 64 = n := by
      omega
    simp only [bytes?, digit?_digit (n := n / 262144) (by omega),
      digit?_digit (Nat.mod_lt _ (Nat.succ_pos 63)), Option.bind_eq_bind, Option.bind_some, hvalue,
      Option.pure_def, Option.some.injEq, Prod.mk.injEq, UInt8.ofNat_eq_iff_mod_eq_toNat]
    omega

/-- Two bytes leave nothing for the last of four digits. -/
theorem bytes?_eq_some_zero_iff {a b c : Char} {x y : UInt8} :
    bytes? a b c 'A' = some (x, y, 0) ↔ [a, b, c] = (group x y 0).take 3 := by
  have hlast : (x.toNat * 65536 + y.toNat * 256 + (0 : UInt8).toNat) % 64 = 0 := by
    rw [UInt8.toNat_zero]
    omega
  rw [bytes?_eq_some_iff, show 'A' = digit 0 from rfl]
  simp only [group, hlast, List.take_succ_cons, List.take_zero, List.cons.injEq, and_true]

/-- One byte leaves nothing for the last two of four digits. -/
theorem bytes?_eq_some_zero_zero_iff {a b : Char} {x z : UInt8} :
    bytes? a b 'A' 'A' = some (x, 0, z) ↔ [a, b] = (group x 0 0).take 2 ∧ z = 0 := by
  constructor
  · intro h
    have hz : z = 0 := by
      have hlt := z.toNat_lt
      rw [bytes?_eq_some_iff, show 'A' = digit 0 from rfl] at h
      simp only [group, List.cons.injEq, and_true] at h
      obtain ⟨-, -, hthird, hfourth⟩ := h
      rw [digit_inj (by omega) (by omega), UInt8.toNat_zero] at hthird hfourth
      rw [← UInt8.toNat_inj, UInt8.toNat_zero]
      omega
    subst hz
    exact ⟨congrArg (List.take 2) (bytes?_eq_some_zero_iff.1 h), rfl⟩
  · rintro ⟨h, rfl⟩
    have hthird :
        (x.toNat * 65536 + (0 : UInt8).toNat * 256 + (0 : UInt8).toNat) / 64 % 64 = 0 := by
      rw [UInt8.toNat_zero]
      omega
    rw [bytes?_eq_some_zero_iff, show 'A' = digit 0 from rfl]
    simp only [group, hthird, List.take_succ_cons, List.take_zero, List.cons.injEq, and_true] at h ⊢
    exact h

/-! ## Texts -/

/-- The text that stands for some bytes. -/
def encode : List UInt8 → List Char
  | [] => []
  | [x] => (group x 0 0).take 2 ++ ['=', '=']
  | [x, y] => (group x y 0).take 3 ++ ['=']
  | x :: y :: z :: rest => group x y z ++ encode rest

example : encode "leaf".toUTF8.data.toList = "bGVhZg==".toList := by decide

theorem exists_digit_of_mem_group {x y z : UInt8} {c : Char} (h : c ∈ group x y z) :
    ∃ n < 64, c = digit n := by
  have hx := x.toNat_lt
  have hy := y.toNat_lt
  have hz := z.toNat_lt
  simp only [group, List.mem_cons, List.not_mem_nil, or_false] at h
  rcases h with rfl | rfl | rfl | rfl
  all_goals exact ⟨_, by omega, rfl⟩

theorem group_ne_pad {x y z : UInt8} {c : Char} (h : c ∈ group x y z) : c ≠ '=' := by
  obtain ⟨n, hn, rfl⟩ := exists_digit_of_mem_group h
  exact digit_ne_pad hn

/-- A text of bytes has no other characters than digits and padding. -/
theorem eq_pad_or_digit_of_mem_encode {bytes : List UInt8} {c : Char} (h : c ∈ encode bytes) :
    c = '=' ∨ ∃ n < 64, c = digit n := by
  induction bytes using encode.induct with
  | case1 => cases h
  | case2 x =>
    rcases List.mem_append.1 h with h | h
    · exact .inr (exists_digit_of_mem_group (List.mem_of_mem_take h))
    · exact .inl (by simpa using h)
  | case3 x y =>
    rcases List.mem_append.1 h with h | h
    · exact .inr (exists_digit_of_mem_group (List.mem_of_mem_take h))
    · exact .inl (by simpa using h)
  | case4 x y z rest ih =>
    rcases List.mem_append.1 h with h | h
    · exact .inr (exists_digit_of_mem_group h)
    · exact ih h

theorem encode_ne_nil {bytes : List UInt8} (h : bytes ≠ []) : encode bytes ≠ [] := by
  rcases bytes with _ | ⟨x, _ | ⟨y, _ | ⟨z, rest⟩⟩⟩
  · exact absurd rfl h
  all_goals simp [encode, group]

theorem decode?_encode (bytes : List UInt8) : decode? (encode bytes) = some bytes := by
  induction bytes using encode.induct with
  | case1 => rfl
  | case2 x =>
    obtain ⟨a, b, hgroup⟩ : ∃ a b, [a, b] = (group x 0 0).take 2 := ⟨_, _, rfl⟩
    have hb := bytes?_eq_some_zero_zero_iff.2 ⟨hgroup, rfl⟩
    rw [encode, ← hgroup]
    change decode? [a, b, '=', '='] = some [x]
    rw [decode?, hb]
    rfl
  | case3 x y =>
    obtain ⟨a, b, c, hgroup⟩ : ∃ a b c, [a, b, c] = (group x y 0).take 3 := ⟨_, _, _, rfl⟩
    have hmem : c ∈ (group x y 0).take 3 := by simp [← hgroup]
    have hc : c ≠ '=' := group_ne_pad (List.mem_of_mem_take hmem)
    rw [encode, ← hgroup]
    change decode? [a, b, c, '='] = some [x, y]
    rw [decode?.eq_3 a b c hc, bytes?_eq_some_zero_iff.2 hgroup]
    rfl
  | case4 x y z rest ih =>
    obtain ⟨a, b, c, d, hgroup⟩ : ∃ a b c d, [a, b, c, d] = group x y z := ⟨_, _, _, _, rfl⟩
    have hmem : d ∈ group x y z := by simp [← hgroup]
    have hd : d ≠ '=' := group_ne_pad hmem
    rw [encode, ← hgroup]
    change decode? (a :: b :: c :: d :: encode rest) = some (x :: y :: z :: rest)
    rw [decode?.eq_4 a b c d _ (fun _ h _ => hd h) (fun h _ => hd h), bytes?_eq_some_iff.2 hgroup,
      ih]

theorem encode_of_decode? {cs : List Char} {bytes : List UInt8} (h : decode? cs = some bytes) :
    encode bytes = cs := by
  fun_induction decode? cs generalizing bytes with
  | case1 =>
    cases h
    rfl
  | case2 a b x z hb =>
    cases h
    obtain ⟨hgroup, -⟩ := bytes?_eq_some_zero_zero_iff.1 hb
    rw [encode, ← hgroup]
    rfl
  | case4 a b c hc x y hb =>
    cases h
    rw [encode, ← bytes?_eq_some_zero_iff.1 hb]
    rfl
  | case6 a b c d rest hpad hpad' x y z bytes' hrest hb ih =>
    cases h
    rw [encode, ← bytes?_eq_some_iff.1 hb, ih hrest]
    rfl
  | _ => cases h

/-- **What is read is just what bytes are encoded to.** -/
theorem decode?_eq_some_iff {cs : List Char} {bytes : List UInt8} :
    decode? cs = some bytes ↔ cs = encode bytes := by
  constructor
  · exact fun h => (encode_of_decode? h).symm
  · rintro rfl
    exact decode?_encode bytes

end TrafficSchema.Base64
