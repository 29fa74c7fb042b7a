import TrafficSchema.Xml.Markup

/-!
# Events

`Event.read` turns an XML text into the sequence of its events: elements being opened and
closed, text, and what carries no structure. White space alone is no text. Closing tags are
matched with the tags they close, so the sequence tells only that an element is closed. At the
first fault of form the sequence ends with `Event.fault`.
-/

namespace TrafficSchema.Xml

/-- Something that happens while an XML text is read. -/
inductive Event
  | opened (tag : String) (attributes : List Attribute)
  /-- An element without content is opened and closed at once. -/
  | emptied (tag : String) (attributes : List Attribute)
  | closed
  /-- Text that is not only white space, or character data of any content. -/
  | text
  /-- A comment, a processing instruction, a declaration or a document type. -/
  | skipped
  /-- The text is not well formed here. -/
  | fault
  deriving DecidableEq

namespace Event

/-- The events of a text in which elements with the given names, the innermost first, are
open. -/
def readInside (cs : List Char) (names : List (List Char)) : List Event :=
  match h : cs.dropWhile Text.isMarkupSpace with
  | [] => []
  | c :: cs' =>
    have hlt := Text.length_of_dropWhile h
    if c = '<' then
      match h' : Markup.next? cs' with
      | none => [fault]
      | some (markup, rest) =>
        have := Nat.lt_trans (Markup.length_next? h') hlt
        match markup with
        | .opening name attributes =>
          opened (String.ofList name) (Attribute.read attributes) ::
            readInside rest (name :: names)
        | .emptied name attributes =>
          emptied (String.ofList name) (Attribute.read attributes) :: readInside rest names
        | .closing name =>
          match names with
          | [] => [fault]
          | innermost :: names =>
            if name = innermost then closed :: readInside rest names else [fault]
        | .characterData => text :: readInside rest names
        | .skipped => skipped :: readInside rest names
    else
      have := Nat.lt_of_le_of_lt (List.dropWhile_sublist (· != '<') (l := cs')).length_le hlt
      text :: readInside (cs'.dropWhile (· != '<')) names
termination_by cs.length

/-- The events of a text. A byte order mark at its start is passed over. -/
def read (text : String) : List Event :=
  match text.toList with
  | '\uFEFF' :: cs => readInside cs []
  | cs => readInside cs []

end Event

end TrafficSchema.Xml
