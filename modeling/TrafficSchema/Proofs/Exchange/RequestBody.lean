import TrafficSchema.Exchange.Decode
import TrafficSchema.Proofs.Encoding.Utf8
import TrafficSchema.Proofs.Json.Opening
import TrafficSchema.Proofs.Json.Text

/-!
# Request bodies

A body is taken as JSON only if it is an array or an object, whose text begins with a bracket or a
brace. An XML document may have nothing but white space before its first tag
(`Xml.shapeOf_eq_textOutsideRoot`). So no body is both (`Exchange.xmlBody?_of_jsonBody?`), and
which of the two is tried first makes no difference: the content type that was sent has no effect
(`Exchange.requestShape?_congr`). A text in which no tag begins at all is no document either
(`Xml.shapeOf_eq_error_of_no_tag`).
-/

namespace TrafficSchema

open Json

/-! ## Texts that are no XML -/

namespace Xml

/-- A text is read from its first character on, unless that is a byte order mark. A mark is no white
space, so it would come first. -/
theorem Event.read_eq_readInside {text : String}
    (hmark : ∀ cs, text.toList.dropWhile Text.isMarkupSpace ≠ '\uFEFF' :: cs) :
    Event.read text = readInside text.toList [] := by
  unfold read
  split
  · rename_i cs heq
    refine absurd ?_ (hmark cs)
    rw [heq, List.dropWhile_cons, if_neg (by decide)]
  · rfl

/-- A text in which something else than a tag comes first begins with character data. -/
theorem Event.read_eq_text {text : String} {c : Char} {cs : List Char}
    (htext : text.toList.dropWhile Text.isMarkupSpace = c :: cs) (htag : c ≠ '<')
    (hmark : c ≠ '\uFEFF') : ∃ events, Event.read text = .text :: events := by
  have hread : Event.read text = readInside text.toList [] := by
    apply read_eq_readInside
    rw [htext]
    rintro cs' ⟨⟩
    exact hmark rfl
  rw [hread, readInside]
  split
  · rename_i heq
    rw [htext] at heq
    cases heq
  · rename_i heq
    rw [htext] at heq
    cases heq
    rw [if_neg htag]
    exact ⟨_, rfl⟩

/-- Nothing is read from white space. -/
theorem Event.read_eq_nil {text : String}
    (htext : text.toList.dropWhile Text.isMarkupSpace = []) : Event.read text = [] := by
  rw [read_eq_readInside (by simp [htext]), readInside]
  split
  · rfl
  · rename_i heq
    rw [htext] at heq
    cases heq

/-- **A text in which something else than a tag comes first is no document.** -/
theorem shapeOf_eq_textOutsideRoot {body : ByteArray} {text : String} {c : Char} {cs : List Char}
    (hbody : String.fromUTF8? body = some text)
    (htext : text.toList.dropWhile Text.isMarkupSpace = c :: cs) (htag : c ≠ '<')
    (hmark : c ≠ '\uFEFF') (limit : Nat) : shapeOf limit body = .error .textOutsideRoot := by
  obtain ⟨events, hevents⟩ := Event.read_eq_text htext htag hmark
  unfold shapeOf
  rw [hbody]
  simp only [hevents, shapeOfEvents, List.foldlM_cons]
  rfl

/-- **A text in which no tag begins is no document.** -/
theorem shapeOf_eq_error_of_no_tag {text : String}
    (htext : ∀ c ∈ text.toList, c ≠ '<' ∧ c ≠ '\uFEFF') (limit : Nat) :
    shapeOf limit text.toUTF8 = .error .noRoot ∨
      shapeOf limit text.toUTF8 = .error .textOutsideRoot := by
  have hbody := Utf8.fromUTF8?_toUTF8 text
  cases hdrop : text.toList.dropWhile Text.isMarkupSpace with
  | nil =>
    left
    unfold shapeOf
    rw [hbody]
    simp only [Event.read_eq_nil hdrop]
    rfl
  | cons c cs =>
    right
    have hmem : c ∈ text.toList := (List.dropWhile_sublist _).subset (hdrop ▸ List.mem_cons_self)
    obtain ⟨htag, hmark⟩ := htext c hmem
    exact shapeOf_eq_textOutsideRoot hbody hdrop htag hmark limit

end Xml

/-! ## Blank bodies -/

/-- The characters of ASCII white space. -/
def Text.asciiSpace : List Char := ['\t', '\n', '\x0c', '\r', ' ']

namespace Exchange

/-- The bytes that count as blank are those of ASCII white space. -/
theorem all_utf8EncodeChar_iff (c : Char) : ((String.utf8EncodeChar c).all fun b =>
    b == 9 || b == 10 || b == 12 || b == 13 || b == 32) ↔ c ∈ Text.asciiSpace := by
  rcases Nat.lt_or_ge c.toNat 128 with hc | hc
  · revert c
    exact @Utf8.forall_of_toNat_lt 128 (fun c => _ ↔ c ∈ _) (by decide)
  · -- beyond ASCII both sides fail
    constructor
    · intro h
      obtain ⟨b, hb, hlarge⟩ := Utf8.exists_mem_utf8EncodeChar hc
      have hblank := List.all_eq_true.1 h b hb
      simp only [Bool.or_eq_true, beq_iff_eq] at hblank
      obtain (((rfl | rfl) | rfl) | rfl) | rfl := hblank <;> exact absurd hlarge (by decide)
    · intro h
      simp only [Text.asciiSpace, List.mem_cons, List.not_mem_nil, or_false] at h
      obtain rfl | rfl | rfl | rfl | rfl := h <;> exact absurd hc (by decide)

/-- **A text is a blank body just if all its characters are ASCII white space.** -/
theorem isBlankBody_iff {text : String} :
    isBlankBody text.toUTF8 ↔ ∀ c ∈ text.toList, c ∈ Text.asciiSpace := by
  rw [isBlankBody, Utf8.toList_toUTF8, List.all_flatMap, List.all_eq_true]
  simp only [all_utf8EncodeChar_iff]

/-! ## Bodies that are JSON -/

/-- Only arrays and objects may have a structured shape. -/
theorem isStructured_of_infer {value : Value} {t : ShapeTree}
    (h : (Shape.infer value).tree? = some t) : value.isStructured := by
  cases value with
  | array items | object members => rfl
  | null | bool b | number n | string s => cases h

/-- **No body is both JSON and XML.** -/
theorem xmlBody?_of_jsonBody? {body : ByteArray} {t : ShapeTree} (h : jsonBody? body = some t)
    (limit : Nat) : xmlBody? limit body = none := by
  obtain ⟨text, htext, h⟩ := Option.bind_eq_some_iff.1 h
  split at h
  · rename_i value hvalue
    obtain ⟨c, cs, hopening, hc⟩ := Value.opening_of_ofText hvalue (isStructured_of_infer h)
    have htag : c ≠ '<' := by rcases hc with rfl | rfl <;> decide
    have hmark : c ≠ '\uFEFF' := by rcases hc with rfl | rfl <;> decide
    rw [xmlBody?, Xml.shapeOf_eq_textOutsideRoot htext hopening htag hmark]
    rfl
  · cases h

/-- **The content type that was sent has no effect** on the shape of a request body. -/
theorem requestShape?_congr {e e' : Exchange} (h : e.requestBody = e'.requestBody) (limit : Nat) :
    e.requestShape? limit = e'.requestShape? limit := by
  have hor : ((jsonBody? e.requestBody).map (ContentType.json, ·)).or
        ((xmlBody? limit e.requestBody).map (ContentType.xml, ·)) =
      ((xmlBody? limit e.requestBody).map (ContentType.xml, ·)).or
        ((jsonBody? e.requestBody).map (ContentType.json, ·)) := by
    cases hjson : jsonBody? e.requestBody with
    | none => simp
    | some t => simp [xmlBody?_of_jsonBody? hjson limit]
  simp only [requestShape?, ← h, hor, ite_self]

end Exchange

/-! ## The text of an object -/

theorem Json.Value.text_object (members : List (String × Value)) (layout : Layout) :
    ∃ cs, ((Value.object members).text layout).toList = '{' :: cs := by
  rw [Value.text, String.toList_ofList]
  cases members with
  | nil => exact ⟨_, rfl⟩
  | cons member rest => exact ⟨_, rfl⟩

namespace Exchange

theorem isBlankBody_of_brace {text : String} {cs : List Char} (h : text.toList = '{' :: cs) :
    isBlankBody text.toUTF8 = false := by
  rw [Bool.eq_false_iff, ne_eq, isBlankBody_iff, h]
  exact fun hblank => absurd (hblank '{' List.mem_cons_self) (by decide)

theorem jsonBody?_text {value : Value} (hfree : value.numberFree)
    (hdepth : value.depth ≤ Node.maxDepth) (layout : Layout) :
    jsonBody? (value.text layout).toUTF8 = (Shape.infer value).tree? := by
  unfold jsonBody?
  rw [Utf8.fromUTF8?_toUTF8]
  simp only [Option.bind_eq_bind, Option.bind_some, Value.ofText_text hfree hdepth]

/-- **The text of an object is taken as JSON**, whatever content type was sent. -/
theorem requestShape?_object {members : List (String × Value)} {layout : Layout} {e : Exchange}
    (hbody : e.requestBody = ((Value.object members).text layout).toUTF8)
    (hfree : (Value.object members).numberFree)
    (hdepth : (Value.object members).depth ≤ Node.maxDepth) (limit : Nat) :
    e.requestShape? limit = some (.json, ShapeTree.inferMembers members ∅) := by
  obtain ⟨cs, hbrace⟩ := Value.text_object members layout
  have hjson : jsonBody? e.requestBody = some (ShapeTree.inferMembers members ∅) := by
    rw [hbody, jsonBody?_text hfree hdepth, Shape.infer]
    rfl
  have hxml := xmlBody?_of_jsonBody? hjson limit
  have hblank : isBlankBody e.requestBody = false := by
    rw [hbody, isBlankBody_of_brace hbrace]
  simp [requestShape?, hxml, hjson, hblank]

end Exchange

end TrafficSchema
