import Mathlib.Control.Monad.Basic
import TrafficSchema.Proofs.Encoding.Base64
import TrafficSchema.Proofs.Exchange.RequestBody

/-!
# Response bodies

A response body may be the base64 text of a compressed document, and is then decoded as the
document itself would be, faults included (`Exchange.responseShape_encoded`). The body is tried as
a document first. This has to fail in a way in which compressed bodies are tried at all, and does:
neither base64 nor white space has a character that begins a tag (`Exchange.shapeOf_encoded`).

A body that is a document is never taken for a compressed one.
-/

namespace TrafficSchema

/-! ## Texts between blanks -/

namespace Text

theorem isBlank_of_mem_asciiSpace {c : Char} (h : c ∈ asciiSpace) : isBlank c := by
  simp only [asciiSpace, List.mem_cons, List.not_mem_nil, or_false] at h
  obtain rfl | rfl | rfl | rfl | rfl := h <;> decide

/-- No tag begins in blanks. -/
theorem ne_tag_of_isBlank {c : Char} (h : isBlank c) : c ≠ '<' ∧ c ≠ '\uFEFF' := by
  constructor
  · rintro rfl
    revert h
    decide
  · rintro rfl
    revert h
    decide

end Text

namespace Exchange

/-! ## Documents -/

/-- A document does not only have white space. -/
theorem isBlankBody_of_shapeOf {limit : Nat} {body : ByteArray} {shape : ShapeTree}
    (h : Xml.shapeOf limit body = .ok shape) : isBlankBody body = false := by
  rw [Bool.eq_false_iff]
  intro hblank
  cases htext : String.fromUTF8? body with
  | none =>
    rw [Xml.shapeOf, htext] at h
    cases h
  | some text =>
    rw [Utf8.fromUTF8?_eq_some_iff] at htext
    subst htext
    have hspace : ∀ c ∈ text.toList, c ≠ '<' ∧ c ≠ '\uFEFF' := fun c hc =>
      Text.ne_tag_of_isBlank (Text.isBlank_of_mem_asciiSpace (isBlankBody_iff.1 hblank c hc))
    obtain hfault | hfault := Xml.shapeOf_eq_error_of_no_tag hspace limit
    · rw [hfault] at h
      cases h
    · rw [hfault] at h
      cases h

/-! ## Encoded bodies -/

/-- Some bytes as base64 text, with something before and after it. -/
def encoded (before : List Char) (bytes : List UInt8) (after : List Char) : ByteArray :=
  (String.ofList (before ++ Base64.encode bytes ++ after)).toUTF8

variable {before after : List Char} {bytes : List UInt8}

theorem not_isBlank_of_mem_encode {c : Char} (h : c ∈ Base64.encode bytes) : ¬ Text.isBlank c := by
  have hdigit : ∀ n < 64, ¬ Text.isBlank (Base64.digit n) := by decide
  rcases Base64.eq_pad_or_digit_of_mem_encode h with rfl | ⟨n, hn, rfl⟩
  · decide
  · exact hdigit n hn

theorem inflateBody_encoded {inflated : List UInt8} (hinflate : Zlib.decode? bytes = some inflated)
    (hbefore : ∀ c ∈ before, Text.isBlank c) (hafter : ∀ c ∈ after, Text.isBlank c) :
    inflateBody (encoded before bytes after) = .ok ⟨inflated.toArray⟩ := by
  have hcs : ∀ c ∈ Base64.encode bytes, ¬ Text.isBlank c := fun _ => not_isBlank_of_mem_encode
  have htrim := Text.trim_append hbefore hcs hafter
  simp only [inflateBody, encoded, Utf8.fromUTF8?_toUTF8, String.toList_ofList, htrim,
    Base64.decode?_encode, hinflate]

theorem isBlankBody_encoded (hbytes : bytes ≠ []) :
    isBlankBody (encoded before bytes after) = false := by
  rw [Bool.eq_false_iff, ne_eq, encoded, isBlankBody_iff, String.toList_ofList]
  intro hblank
  obtain ⟨c, hc⟩ := List.exists_mem_of_ne_nil _ (Base64.encode_ne_nil hbytes)
  have hspace := hblank c (List.mem_append_left after (List.mem_append_right before hc))
  exact not_isBlank_of_mem_encode hc (Text.isBlank_of_mem_asciiSpace hspace)

/-- **Base64 is no document**, because no tag begins in it or in the blanks around it. -/
theorem shapeOf_encoded (bytes : List UInt8) (hbefore : ∀ c ∈ before, Text.isBlank c)
    (hafter : ∀ c ∈ after, Text.isBlank c) (limit : Nat) :
    Xml.shapeOf limit (encoded before bytes after) = .error .noRoot ∨
      Xml.shapeOf limit (encoded before bytes after) = .error .textOutsideRoot := by
  have hdigit : ∀ n < 64, Base64.digit n ≠ '<' ∧ Base64.digit n ≠ '\uFEFF' := by decide
  apply Xml.shapeOf_eq_error_of_no_tag
  intro c hc
  simp only [String.toList_ofList, List.mem_append] at hc
  obtain (hc | hc) | hc := hc
  · exact Text.ne_tag_of_isBlank (hbefore c hc)
  · obtain rfl | ⟨n, hn, rfl⟩ := Base64.eq_pad_or_digit_of_mem_encode hc
    · decide
    · exact hdigit n hn
  · exact Text.ne_tag_of_isBlank (hafter c hc)

/-! ## Response bodies -/

/-- **A compressed body is decoded as the document that it stands for**, if compressed bodies are
decoded at all: it has the same shape, and the same faults, whatever white space stands around the
base64 text. A body that is a document itself has the shape of that document and does not count as
compressed. -/
theorem responseShape_encoded :
    (∀ (config : Config) (compressed inflated : List UInt8) (before after : List Char),
      config.decodeCompressed → Zlib.decode? compressed = some inflated →
      (∀ c ∈ before, Text.isBlank c) → (∀ c ∈ after, Text.isBlank c) →
      responseShape config (encoded before compressed after) =
        ((Xml.shapeOf config.maxDepth ⟨inflated.toArray⟩).map (·, true)).mapError .xml) ∧
    ∀ (config : Config) (body : ByteArray) (shape : ShapeTree),
      Xml.shapeOf config.maxDepth body = .ok shape →
        responseShape config body = .ok (shape, false) := by
  constructor
  · intro config compressed inflated before after hconfig hinflate hbefore hafter
    have hne : compressed ≠ [] := by
      rintro rfl
      cases hinflate
    have hinflated := inflateBody_encoded hinflate hbefore hafter
    -- with either fault of the encoded text the body is tried as a compressed one
    obtain hfault | hfault := shapeOf_encoded compressed hbefore hafter config.maxDepth
    all_goals
      rw [responseShape, isBlankBody_encoded hne, hfault, hinflated]
      change (if config.decodeCompressed then _ else _) = _
      rw [if_pos hconfig]
      cases Xml.shapeOf config.maxDepth ⟨inflated.toArray⟩ <;> rfl
  · intro config body shape h
    rw [responseShape, isBlankBody_of_shapeOf h, h]
    rfl

/-- The document `<a/>`, compressed. -/
def compressedDocument : List UInt8 := [120, 156, 179, 73, 212, 183, 3, 0, 2, 179, 1, 11]

theorem decode?_compressedDocument :
    Zlib.decode? compressedDocument = some [60, 97, 47, 62] := by decide +kernel

theorem shapeOf_document : Xml.shapeOf 64 ⟨#[60, 97, 47, 62]⟩ = .ok (.singleton "a" (.tree ∅)) := by
  decide +kernel

theorem responseShape_encoded_document :
    responseShape {} (encoded ['\n', '\x0c'] compressedDocument [' ']) =
        .ok (.singleton "a" (.tree ∅), true) ∧
      responseShape {} ⟨#[60, 97, 47, 62]⟩ = .ok (.singleton "a" (.tree ∅), false) := by
  have hbefore : ∀ c ∈ ['\n', '\x0c'], Text.isBlank c := List.all_eq_true.1 (by decide)
  have hafter : ∀ c ∈ [' '], Text.isBlank c := List.all_eq_true.1 (by decide)
  have hencoded := responseShape_encoded.1 {} compressedDocument [60, 97, 47, 62] ['\n', '\x0c']
    [' '] rfl decode?_compressedDocument hbefore hafter
  refine ⟨?_, responseShape_encoded.2 {} _ _ shapeOf_document⟩
  rw [hencoded]
  change ((Xml.shapeOf 64 ⟨#[60, 97, 47, 62]⟩).map (·, true)).mapError BodyFault.xml = _
  rw [shapeOf_document]
  rfl

end Exchange

end TrafficSchema
