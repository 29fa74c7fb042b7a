/-!
# The bytes of a text

A text is turned into bytes character by character (`Utf8.toList_toUTF8`), and these bytes are
read as that text again, as no others are (`Utf8.fromUTF8?_eq_some_iff`). A character beyond ASCII
has only bytes beyond ASCII (`Utf8.le_toNat_of_mem_utf8EncodeChar`); what is said of ASCII
characters can be checked one by one (`Utf8.forall_of_toNat_lt`).
-/

namespace TrafficSchema.Utf8

theorem loop_toList (bytes : ByteArray) (i : Nat) (before : List UInt8) :
    ByteArray.toList.loop bytes i before = before.reverse ++ bytes.data.toList.drop i := by
  induction i, before using ByteArray.toList.loop.induct bytes with
  | case1 i before hi ih =>
    have hi' : i < bytes.data.toList.length := by simpa using hi
    have hget : bytes.get! i = bytes.data.toList[i] := by
      rw [ByteArray.get!, Array.getElem_toList]
      exact getElem!_pos bytes.data i (by simpa using hi)
    rw [ByteArray.toList.loop, if_pos hi, ih, List.drop_eq_getElem_cons hi', hget]
    simp
  | case2 i before hi =>
    have hi' : bytes.data.toList.length ≤ i := by simpa using hi
    rw [ByteArray.toList.loop, if_neg hi, List.drop_eq_nil_of_le hi', List.append_nil]

theorem toList_eq_data (bytes : ByteArray) : bytes.toList = bytes.data.toList := by
  rw [ByteArray.toList, loop_toList]
  rfl

/-- **The bytes of a text are those of its characters.** -/
theorem toList_toUTF8 (text : String) :
    text.toUTF8.toList = text.toList.flatMap String.utf8EncodeChar := by
  have hbytes : text.toUTF8 = text.toList.utf8Encode := String.utf8Encode_toList.symm
  rw [toList_eq_data, hbytes, List.utf8Encode, List.toList_data_toByteArray]

/-! ## One character -/

/-- What holds of all characters below a bound can be checked by counting. -/
theorem forall_of_toNat_lt {n : Nat} {p : Char → Prop} (h : ∀ k < n, p (.ofNat k)) {c : Char}
    (hc : c.toNat < n) : p c := by
  have hp := h c.toNat hc
  rwa [Char.ofNat_toNat] at hp

/-- All bytes of a character beyond ASCII are beyond ASCII. -/
theorem le_toNat_of_mem_utf8EncodeChar {c : Char} (hc : 128 ≤ c.toNat) {b : UInt8}
    (hb : b ∈ String.utf8EncodeChar c) : 128 ≤ b.toNat := by
  have hlarge : ¬ c.val.toNat ≤ 127 := Nat.not_le.2 hc
  have hbyte (n : Nat) (hn : 128 ≤ n ∧ n < 256) : 128 ≤ (UInt8.ofNat n).toNat := by
    rw [UInt8.toNat_ofNat']
    omega
  simp only [String.utf8EncodeChar, if_neg hlarge] at hb
  split at hb
  · simp only [List.mem_cons, List.not_mem_nil, or_false] at hb
    obtain rfl | rfl := hb <;> exact hbyte _ (by omega)
  · split at hb
    · simp only [List.mem_cons, List.not_mem_nil, or_false] at hb
      obtain rfl | rfl | rfl := hb <;> exact hbyte _ (by omega)
    · simp only [List.mem_cons, List.not_mem_nil, or_false] at hb
      obtain rfl | rfl | rfl | rfl := hb <;> exact hbyte _ (by omega)

theorem exists_mem_utf8EncodeChar {c : Char} (hc : 128 ≤ c.toNat) :
    ∃ b ∈ String.utf8EncodeChar c, 128 ≤ b.toNat := by
  obtain ⟨b, hb⟩ := List.exists_mem_of_ne_nil _ String.utf8EncodeChar_ne_nil
  exact ⟨b, hb, le_toNat_of_mem_utf8EncodeChar hc hb⟩

/-! ## Reading -/

/-- **The bytes of a text are read as that text.** -/
theorem fromUTF8?_toUTF8 (text : String) : String.fromUTF8? text.toUTF8 = some text := by
  unfold String.fromUTF8?
  rw [String.toUTF8_eq_toByteArray, dif_pos text.isValidUTF8]
  rfl

theorem fromUTF8?_eq_some_iff {bytes : ByteArray} {text : String} :
    String.fromUTF8? bytes = some text ↔ bytes = text.toUTF8 := by
  constructor
  · intro h
    unfold String.fromUTF8? at h
    split at h
    · cases h
      rfl
    · cases h
  · rintro rfl
    exact fromUTF8?_toUTF8 text

end TrafficSchema.Utf8
