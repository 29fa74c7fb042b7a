import TrafficSchema.Json.Value

/-!
# Printing JSON

`Value.render` writes a value in one of two layouts. The compact one has no white space at all.
The indented one starts a line for every item and every member, indented by two spaces for each
enclosing array or object; an empty array or object stays `[]` or `{}`.
-/

namespace TrafficSchema.Json

/-- How the items of a value are laid out. -/
inductive Layout
  | compact
  | indented
  deriving DecidableEq

namespace Layout

/-- What separates the items at a level of nesting from what stands before them. -/
def lineBreak : Layout → Nat → List Char
  | compact, _ => []
  | indented, level => '\n' :: List.replicate (2 * level) ' '

/-- What separates a key from its value. -/
def colon : Layout → List Char
  | compact => [':']
  | indented => [':', ' ']

end Layout

/-! ## Strings -/

/-- A hexadecimal digit, in lower case. -/
def hexDigit (n : Nat) : Char :=
  if n < 10 then Char.ofNat ('0'.toNat + n) else Char.ofNat ('a'.toNat + (n - 10))

/-- How a character is written between quotes: only quotes, backslashes and control characters
are escaped. -/
def escape (c : Char) : List Char :=
  match c with
  | '"' => ['\\', '"']
  | '\\' => ['\\', '\\']
  | '\x08' => ['\\', 'b']
  | '\x0c' => ['\\', 'f']
  | '\n' => ['\\', 'n']
  | '\r' => ['\\', 'r']
  | '\t' => ['\\', 't']
  | c =>
    if c.toNat < 0x20 then
      ['\\', 'u', '0', '0', hexDigit (c.toNat / 16), hexDigit (c.toNat % 16)]
    else [c]

/-- A string between quotes. -/
def quote (s : String) : List Char := '"' :: (s.toList.flatMap escape ++ ['"'])

/-! ## Numbers -/

/-- The text of a number. -/
def Number.text : Number → List Char
  | integer n => (toString n).toList
  | real n =>
    (if n.negative then ['-'] else []) ++ n.whole ++
      (match n.fraction with
        | none => []
        | some digits => '.' :: digits) ++
      match n.exponent with
        | none => []
        | some e => 'e' :: (toString e).toList

/-! ## Values -/

namespace Value

mutual

/-- The text of a value that stands at a level of nesting. -/
def render (layout : Layout) (level : Nat) : Value → List Char
  | null => ['n', 'u', 'l', 'l']
  | bool true => ['t', 'r', 'u', 'e']
  | bool false => ['f', 'a', 'l', 's', 'e']
  | number n => n.text
  | string s => quote s
  | array [] => ['[', ']']
  | array (item :: rest) =>
    '[' :: (layout.lineBreak (level + 1) ++ render layout (level + 1) item ++
      renderItems layout (level + 1) rest ++ layout.lineBreak level ++ [']'])
  | object [] => ['{', '}']
  | object ((key, value) :: rest) =>
    '{' :: (layout.lineBreak (level + 1) ++ quote key ++ layout.colon ++
      render layout (level + 1) value ++ renderMembers layout (level + 1) rest ++
      layout.lineBreak level ++ ['}'])

/-- The text of the items of an array behind the first. -/
def renderItems (layout : Layout) (level : Nat) : List Value → List Char
  | [] => []
  | item :: rest =>
    ',' :: (layout.lineBreak level ++ render layout level item ++ renderItems layout level rest)

/-- The text of the members of an object behind the first. -/
def renderMembers (layout : Layout) (level : Nat) : List (String × Value) → List Char
  | [] => []
  | (key, value) :: rest =>
    ',' :: (layout.lineBreak level ++ quote key ++ layout.colon ++ render layout level value ++
      renderMembers layout level rest)

end

/-- The text of a value. -/
def text (layout : Layout) (value : Value) : String := String.ofList (value.render layout 0)

end Value

end TrafficSchema.Json
