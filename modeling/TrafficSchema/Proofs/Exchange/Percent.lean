import Mathlib.Tactic.IntervalCases
import TrafficSchema.Exchange.Query
import TrafficSchema.Proofs.Encoding.Utf8

/-!
# Percent encoding

There are many encodings of a text, as all characters but a few may be escaped or left, and as
hexadecimal digits may be written in either case (`Percent.Encodes`). Every text has one, for
instance that of an encoder which escapes all characters but those that pass a test
(`Percent.encodes_encode`), and all of them are decoded as that text (`Percent.decode_of_encodes`).

An encoder may write digits where the text has none, as most bytes have a hexadecimal digit that is
no letter (`Percent.forall_encode_not_isDigit_iff`).
-/

namespace TrafficSchema.Percent

/-! ## Encodings -/

/-- A character is a hexadecimal digit, in lower or in upper case. -/
def IsHexDigit (c : Char) (n : ℕ) : Prop := c = Nat.digitChar n ∨ c = (Nat.digitChar n).toUpper

/-- Every byte is written as `%` and two hexadecimal digits. -/
inductive Escapes : List Char → List UInt8 → Prop
  | nil : Escapes [] []
  | cons {high low : Char} {b : UInt8} {cs : List Char} {bs : List UInt8}
      (hhigh : IsHexDigit high (b.toNat / 16)) (hlow : IsHexDigit low (b.toNat % 16))
      (h : Escapes cs bs) : Escapes ('%' :: high :: low :: cs) (b :: bs)

/-- The characters that are escaped in a query. -/
def reserved : List Char := ['%', '&', '=']

/-- A text is written with its reserved characters escaped; others are escaped or left. -/
inductive Encodes : List Char → List Char → Prop
  | nil : Encodes [] []
  | leave {c : Char} {raw cs : List Char} (hc : c ∉ reserved) (h : Encodes raw cs) :
      Encodes (c :: raw) (c :: cs)
  | escape {c : Char} {escaped raw cs : List Char} (hc : Escapes escaped (String.utf8EncodeChar c))
      (h : Encodes raw cs) : Encodes (escaped ++ raw) (c :: cs)

/-! ## Encoders -/

/-- A byte as `%` and two hexadecimal digits in upper case. -/
def escape (b : UInt8) : List Char :=
  ['%', (Nat.digitChar (b.toNat / 16)).toUpper, (Nat.digitChar (b.toNat % 16)).toUpper]

/-- The encoder that leaves the characters passing a test and escapes all others. -/
def encode (leave : Char → Bool) (cs : List Char) : List Char :=
  cs.flatMap fun c => if leave c then [c] else (String.utf8EncodeChar c).flatMap escape

/-- The characters that never need an escape. -/
def isUnreserved (c : Char) : Bool := c.isAlphanum || ['-', '.', '_', '~'].contains c

theorem escapes_flatMap_escape (bs : List UInt8) : Escapes (bs.flatMap escape) bs := by
  induction bs with
  | nil => exact .nil
  | cons b bs ih => exact .cons (.inr rfl) (.inr rfl) ih

/-- An encoder that escapes all reserved characters gives an encoding of every text. -/
theorem encodes_encode {leave : Char → Bool} (h : ∀ c ∈ reserved, leave c = false)
    (cs : List Char) : Encodes (encode leave cs) cs := by
  induction cs with
  | nil => exact .nil
  | cons c cs ih =>
    rw [encode, List.flatMap_cons]
    by_cases hc : leave c
    · rw [if_pos hc]
      exact .leave (fun hmem => by simp [h c hmem] at hc) ih
    · rw [if_neg hc]
      exact .escape (escapes_flatMap_escape (String.utf8EncodeChar c)) ih

/-- Every text has an encoding. -/
theorem exists_encodes (cs : List Char) : ∃ raw, Encodes raw cs :=
  ⟨encode (fun _ => false) cs, encodes_encode (fun _ _ => rfl) cs⟩

/-- Both hexadecimal digits of a byte are letters. -/
def IsLettered (b : UInt8) : Prop := 10 ≤ b.toNat / 16 ∧ 10 ≤ b.toNat % 16

instance (b : UInt8) : Decidable (IsLettered b) :=
  inferInstanceAs (Decidable (10 ≤ b.toNat / 16 ∧ 10 ≤ b.toNat % 16))

theorem isDigit_toUpper_digitChar {n : ℕ} (hn : n < 16) :
    (Nat.digitChar n).toUpper.isDigit ↔ n < 10 := by
  interval_cases n <;> decide

theorem forall_escape_not_isDigit_iff {b : UInt8} :
    (∀ c ∈ escape b, ¬ c.isDigit) ↔ IsLettered b := by
  have hb := b.toNat_lt
  have hpercent : '%'.isDigit = false := by decide
  simp only [escape, List.forall_mem_cons, List.not_mem_nil, IsEmpty.forall_iff, implies_true,
    and_true, hpercent, Bool.false_eq_true, not_false_eq_true, true_and, IsLettered]
  rw [isDigit_toUpper_digitChar (by omega), isDigit_toUpper_digitChar (by omega), not_lt, not_lt]

example : IsLettered 0xCF ∧ ¬ IsLettered 0xC3 := by decide

/-- An encoder writes a digit where it leaves one, and for the digits of the bytes it escapes. -/
theorem forall_encode_not_isDigit_iff {leave : Char → Bool} {cs : List Char} :
    (∀ c ∈ encode leave cs, ¬ c.isDigit) ↔
      ∀ c ∈ cs, if leave c then ¬ c.isDigit else ∀ b ∈ String.utf8EncodeChar c, IsLettered b := by
  simp only [encode, List.forall_mem_flatMap]
  refine forall₂_congr fun c _ => ?_
  split
  · rw [List.forall_mem_singleton]
  · simp only [List.forall_mem_flatMap, forall_escape_not_isDigit_iff]

/-! ## Characters -/

theorem IsHexDigit.spec {c : Char} {n : ℕ} (h : IsHexDigit c n) (hn : n < 16) :
    c ∉ ['&', '='] ∧ ∃ b, String.utf8EncodeChar c = [b] ∧ hexDigit? b = some (UInt8.ofNat n) := by
  obtain rfl | rfl := h
  · interval_cases n <;> exact ⟨by decide, _, rfl, by decide⟩
  · interval_cases n <;> exact ⟨by decide, _, rfl, by decide⟩

theorem Escapes.not_mem {escaped : List Char} {bs : List UInt8} (h : Escapes escaped bs) {c : Char}
    (hc : c ∈ ['&', '=']) : c ∉ escaped := by
  induction h with
  | nil => exact List.not_mem_nil
  | cons hhigh hlow h ih =>
    rename_i b _ _
    have hb := b.toNat_lt
    have hpercent : c ≠ '%' := by
      rintro rfl
      exact absurd hc (by decide)
    have hhigh' := (hhigh.spec (by omega)).1
    have hlow' := (hlow.spec (by omega)).1
    simp only [List.mem_cons, not_or]
    exact ⟨hpercent, fun heq => hhigh' (heq ▸ hc), fun heq => hlow' (heq ▸ hc), ih⟩

/-- An encoded text has none of the characters that separate the parts of a query. -/
theorem Encodes.not_mem {raw cs : List Char} (h : Encodes raw cs) {c : Char}
    (hc : c ∈ ['&', '=']) : c ∉ raw := by
  induction h with
  | nil => exact List.not_mem_nil
  | leave hd h ih =>
    have hreserved : c ∈ reserved := List.mem_cons_of_mem _ hc
    exact List.not_mem_cons_of_ne_of_not_mem (fun heq => hd (heq ▸ hreserved)) ih
  | escape hescaped h ih =>
    rw [List.mem_append, not_or]
    exact ⟨hescaped.not_mem hc, ih⟩

/-- An encoded text starts with a digit only if the text does. -/
theorem Encodes.not_isDigit_head? {raw cs : List Char} (h : Encodes raw cs)
    (hcs : ∀ c ∈ cs, ¬ c.isDigit) : ∀ c ∈ raw.head?, ¬ c.isDigit := by
  cases h with
  | nil => exact fun _ hc => by cases hc
  | @leave c =>
    simp only [List.head?_cons, Option.mem_some_iff, forall_eq']
    exact hcs c List.mem_cons_self
  | @escape c _ _ _ hescaped =>
    -- an escape starts with `%`
    generalize hbytes : String.utf8EncodeChar c = bytes at hescaped
    cases hescaped with
    | nil => exact absurd hbytes String.utf8EncodeChar_ne_nil
    | cons =>
      simp only [List.cons_append, List.head?_cons, Option.mem_some_iff, forall_eq']
      decide

/-! ## Decoding -/

theorem decodeBytes_cons {b : UInt8} (hb : b ≠ 37) (rest : List UInt8) :
    decodeBytes (b :: rest) = b :: decodeBytes rest := by
  rw [decodeBytes]
  exact fun _ _ _ heq _ => hb heq

theorem decodeBytes_append {bs : List UInt8} (hbs : 37 ∉ bs) (rest : List UInt8) :
    decodeBytes (bs ++ rest) = bs ++ decodeBytes rest := by
  induction bs with
  | nil => rfl
  | cons b bs ih =>
    rw [List.mem_cons, not_or] at hbs
    rw [List.cons_append, decodeBytes_cons (Ne.symm hbs.1), ih hbs.2, List.cons_append]

/-- No character but `%` has its byte. -/
theorem not_mem_utf8EncodeChar {c : Char} (hc : c ≠ '%') : 37 ∉ String.utf8EncodeChar c := by
  rcases lt_or_ge c.toNat 128 with hlt | hge
  · have hascii : ∀ k < 128, Char.ofNat k ≠ '%' → 37 ∉ String.utf8EncodeChar (Char.ofNat k) := by
      decide
    exact Utf8.forall_of_toNat_lt
      (p := fun c => c ≠ '%' → 37 ∉ String.utf8EncodeChar c) hascii hlt hc
  · intro hmem
    exact absurd (Utf8.le_toNat_of_mem_utf8EncodeChar hge hmem) (by decide)

/-- The text of escaped bytes is decoded as these bytes. -/
theorem Escapes.decodeBytes_append {escaped : List Char} {bs : List UInt8} (h : Escapes escaped bs)
    (rest : List UInt8) :
    decodeBytes (escaped.flatMap String.utf8EncodeChar ++ rest) = bs ++ decodeBytes rest := by
  induction h with
  | nil => rfl
  | cons hhigh hlow h ih =>
    rename_i b cs bs
    have hb := b.toNat_lt
    obtain ⟨-, x, hx, hx'⟩ := hhigh.spec (by omega)
    obtain ⟨-, y, hy, hy'⟩ := hlow.spec (by omega)
    have hpercent : String.utf8EncodeChar '%' = [37] := by decide
    have hvalue : 16 * UInt8.ofNat (b.toNat / 16) + UInt8.ofNat (b.toNat % 16) = b := by
      rw [← UInt8.toNat_inj, UInt8.toNat_add, UInt8.toNat_mul, UInt8.toNat_ofNat',
        UInt8.toNat_ofNat']
      change (16 * _ % 256 + _) % 256 = _
      omega
    simp only [List.flatMap_cons, hpercent, hx, hy, List.cons_append, List.nil_append, decodeBytes,
      hx', hy', hvalue, ih]

theorem Encodes.decodeBytes_eq {raw cs : List Char} (h : Encodes raw cs) :
    decodeBytes (raw.flatMap String.utf8EncodeChar) = cs.flatMap String.utf8EncodeChar := by
  induction h with
  | nil => rfl
  | @leave c _ _ hc h ih =>
    have hpercent : c ≠ '%' := by
      rintro rfl
      exact hc (by decide)
    rw [List.flatMap_cons, Percent.decodeBytes_append (not_mem_utf8EncodeChar hpercent), ih,
      List.flatMap_cons]
  | escape hc h ih => rw [List.flatMap_append, hc.decodeBytes_append, ih, List.flatMap_cons]

theorem decodeBytes_ne_nil {bs : List UInt8} (h : bs ≠ []) : decodeBytes bs ≠ [] := by
  fun_cases decodeBytes bs <;> simp_all

/-- A text stands for the empty one only if it is empty itself. -/
theorem decode_ne_empty {raw : String} (h : raw ≠ "") : decode raw ≠ "" := by
  have hbytes : raw.toUTF8.toList ≠ [] := by
    obtain ⟨c, hc⟩ := List.exists_mem_of_ne_nil raw.toList (by simpa using h)
    rw [Utf8.toList_toUTF8, ne_eq, List.flatMap_eq_nil_iff]
    exact fun hnil => String.utf8EncodeChar_ne_nil (hnil c hc)
  rw [decode]
  cases hread : String.fromUTF8? ⟨(decodeBytes raw.toUTF8.toList).toArray⟩ with
  | none => exact h
  | some text =>
    rintro rfl
    rw [Utf8.fromUTF8?_eq_some_iff] at hread
    refine decodeBytes_ne_nil hbytes ?_
    simpa [Utf8.toList_eq_data] using congrArg ByteArray.toList hread

/-- **All encodings of a text are decoded as that text.** -/
theorem decode_of_encodes {raw text : String} (h : Encodes raw.toList text.toList) :
    decode raw = text := by
  have hbytes : decodeBytes raw.toUTF8.toList = text.toUTF8.toList := by
    rw [Utf8.toList_toUTF8, Utf8.toList_toUTF8, h.decodeBytes_eq]
  have hread : String.fromUTF8? ⟨(decodeBytes raw.toUTF8.toList).toArray⟩ = some text := by
    rw [Utf8.fromUTF8?_eq_some_iff, hbytes, Utf8.toList_eq_data]
  rw [decode, hread, Option.getD_some]

end TrafficSchema.Percent
