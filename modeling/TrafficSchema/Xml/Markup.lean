import TrafficSchema.Xml.Attribute

/-!
# Markup

Markup is what stands between `<` and `>` in an XML text. `Markup.next?` reads one piece of it,
behind the `<`. Each kind has its own rule for where it ends: tags end at the first `>` outside
of quotes, comments at `-->`, character data at `]]>`, processing instructions at `?>`, and a
document type where as many `>` as `<` have been read.

Names are not checked: the name of a tag is all up to the first white space.
-/

namespace TrafficSchema.Xml

/-- A piece of markup. -/
inductive Markup
  | opening (name : List Char) (attributes : List Char)
  /-- A tag that opens an element and closes it at once. -/
  | emptied (name : List Char) (attributes : List Char)
  | closing (name : List Char)
  | characterData
  /-- A comment, a processing instruction, a declaration or a document type. -/
  | skipped

namespace Markup

/-! ## Where markup ends -/

/-- Reads up to the first `>` before which the text, given in reverse order, passes a test. -/
def readTo? (ends : List Char → Bool) : (before : List Char) → List Char →
    Option (List Char × List Char)
  | _, [] => none
  | before, c :: rest =>
    if c = '>' ∧ ends before then some (before.reverse, rest)
    else readTo? ends (c :: before) rest

/-- A comment, from its `!` on, ends with `--` that do not belong to its beginning. -/
def endsComment : List Char → Bool
  | '-' :: '-' :: _ :: _ :: _ :: _ => true
  | _ => false

/-- Character data ends with `]]`. -/
def endsCharacterData : List Char → Bool
  | ']' :: ']' :: _ => true
  | _ => false

/-- A document type ends where its own `>` stands and not one of the declarations in it. -/
def endsDocumentType (before : List Char) : Bool := before.count '<' = before.count '>'

/-- A processing instruction ends with `?`. -/
def endsInstruction : List Char → Bool
  | '?' :: _ => true
  | _ => false

/-- Reads up to the first `>` outside of quotes; `quote` is the quote that is open. -/
def readTag? : (quote : Option Char) → List Char → Option (List Char × List Char)
  | _, [] => none
  | none, c :: rest =>
    if c = '>' then some ([], rest)
    else
      (readTag? (if c = '"' ∨ c = '\'' then some c else none) rest).map fun (tag, rest) =>
        (c :: tag, rest)
  | some quote, c :: rest =>
    (readTag? (if c = quote then none else some quote) rest).map fun (tag, rest) =>
      (c :: tag, rest)

/-! ## Kinds of markup -/

/-- The opening tag with the given content. -/
def ofTag (content : List Char) : Markup :=
  match content.reverse with
  | '/' :: body =>
    let (name, attributes) := Attribute.breakAt Text.isMarkupSpace body.reverse
    emptied name attributes
  | _ =>
    let (name, attributes) := Attribute.breakAt Text.isMarkupSpace content
    opening name attributes

/-- The closing tag with the given content behind the slash. White space behind the name does
not belong to it. -/
def ofClosingTag (content : List Char) : Markup :=
  match Text.dropEndWhile Text.isMarkupSpace content with
  | [] => closing content
  | name => closing name

/-- Whether the content of a document type is complete: the keyword in any case, and behind it
anything but white space. -/
def isDocumentType (content : List Char) : Bool :=
  (content.take 8).map Char.toLower == "!doctype".toList &&
    (content.drop 8).any (!Text.isMarkupSpace ·)

/-- A kind of markup that starts with `!`. -/
structure Declaration where
  /-- Whether the text in front of a `>`, in reverse order, ends the markup. -/
  ends : List Char → Bool
  /-- Whether the content is as it should be. -/
  accepts : List Char → Bool
  markup : Markup

/-- The kind of markup that starts with `!` and the given character. -/
def declarationOf? (c : Char) : Option Declaration :=
  if c = '-' then some ⟨endsComment, "!--".toList.isPrefixOf, skipped⟩
  else if c = '[' then some ⟨endsCharacterData, "![CDATA[".toList.isPrefixOf, characterData⟩
  else if c = 'D' ∨ c = 'd' then some ⟨endsDocumentType, isDocumentType, skipped⟩
  else none

/-- The markup that starts with `!`; the text still has the `!`. -/
def declaration? (cs : List Char) : Option (Markup × List Char) :=
  cs[1]?.bind declarationOf? |>.bind fun declaration =>
    (readTo? declaration.ends [] cs).bind fun (content, rest) =>
      if declaration.accepts content then some (declaration.markup, rest) else none

/-- The markup behind a `<`, and what follows it. -/
def next? (cs : List Char) : Option (Markup × List Char) :=
  match cs with
  | '!' :: _ => declaration? cs
  | '/' :: content => (readTag? none content).map fun (content, rest) =>
    (ofClosingTag content, rest)
  | '?' :: _ => (readTo? endsInstruction [] cs).bind fun (content, rest) =>
    if content = ['?'] then none else some (skipped, rest)
  | _ => (readTag? none cs).map fun (content, rest) => (ofTag content, rest)

/-! ## Progress -/

theorem length_readTo? {ends : List Char → Bool} {before cs content rest : List Char}
    (h : readTo? ends before cs = some (content, rest)) : rest.length < cs.length := by
  induction cs generalizing before with
  | nil => simp [readTo?] at h
  | cons c cs ih =>
    simp only [readTo?] at h
    split at h
    · simp only [Option.some.injEq, Prod.mk.injEq] at h
      simp [h.2]
    · have := ih h
      simp only [List.length_cons]
      omega

theorem length_readTag? {quote : Option Char} {cs content rest : List Char}
    (h : readTag? quote cs = some (content, rest)) : rest.length < cs.length := by
  induction cs generalizing quote content with
  | nil => simp [readTag?] at h
  | cons c cs ih =>
    cases quote with
    | none =>
      simp only [readTag?] at h
      split at h
      · simp only [Option.some.injEq, Prod.mk.injEq] at h
        simp [h.2]
      · simp only [Option.map_eq_some_iff, Prod.exists, Prod.mk.injEq] at h
        obtain ⟨_, _, h, -, rfl⟩ := h
        have := ih h
        simp only [List.length_cons]
        omega
    | some q =>
      simp only [readTag?, Option.map_eq_some_iff, Prod.exists, Prod.mk.injEq] at h
      obtain ⟨_, _, h, -, rfl⟩ := h
      have := ih h
      simp only [List.length_cons]
      omega

theorem length_declaration? {cs rest : List Char} {m : Markup}
    (h : declaration? cs = some (m, rest)) : rest.length < cs.length := by
  simp only [declaration?, Option.bind_eq_some_iff, Prod.exists] at h
  obtain ⟨_, _, _, _, hr, h⟩ := h
  have := length_readTo? hr
  grind

theorem length_next? {cs rest : List Char} {m : Markup} (h : next? cs = some (m, rest)) :
    rest.length < cs.length := by
  unfold next? at h
  split at h
  · exact length_declaration? h
  · simp only [Option.map_eq_some_iff, Prod.exists, Prod.mk.injEq] at h
    obtain ⟨_, _, h, -, rfl⟩ := h
    have := length_readTag? h
    simp only [List.length_cons]
    omega
  · simp only [Option.bind_eq_some_iff, Prod.exists] at h
    obtain ⟨_, _, hr, h⟩ := h
    have := length_readTo? hr
    grind
  · simp only [Option.map_eq_some_iff, Prod.exists, Prod.mk.injEq] at h
    obtain ⟨_, _, h, -, rfl⟩ := h
    exact length_readTag? h

end Markup

end TrafficSchema.Xml
