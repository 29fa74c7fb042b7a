import TrafficSchema.Exchange.Target
import TrafficSchema.Scalar.Infer
import TrafficSchema.Shape.Merge

/-!
# Query strings

A query is a list of pairs `key=value` with `&` between them; empty pairs are passed over. Key
and value are percent-encoded (`Percent.decode`). A key that occurs several times gets the tag that
fits all its values.

A pair may lack its `=`. Then the value starts with the first digit, as in `id123`; if there is
no digit, or the key would be empty, the whole pair is a key without a value.
-/

namespace TrafficSchema

/-! ## Percent encoding

In a percent-encoded text `%` and two hexadecimal digits stand for a byte; a `%` that is not
followed by two such digits stands for itself, like every other character. The bytes are meant
as UTF-8. If they are not, the text is left as it is.
-/

namespace Percent

/-- The value of a hexadecimal digit. -/
def hexDigit? (b : UInt8) : Option UInt8 :=
  if 48 ≤ b ∧ b ≤ 57 then some (b - 48)
  else if 97 ≤ b ∧ b ≤ 102 then some (b - 87)
  else if 65 ≤ b ∧ b ≤ 70 then some (b - 55)
  else none

/-- The bytes that encoded bytes stand for. The byte 37 is the `%`. -/
def decodeBytes : List UInt8 → List UInt8
  | [] => []
  | 37 :: high :: low :: rest =>
    match hexDigit? high, hexDigit? low with
    | some h, some l => (16 * h + l) :: decodeBytes rest
    | _, _ => 37 :: decodeBytes (high :: low :: rest)
  | b :: rest => b :: decodeBytes rest

/-- The text that an encoded text stands for. -/
def decode (text : String) : String :=
  let bytes := decodeBytes text.toUTF8.toList
  (String.fromUTF8? ⟨bytes.toArray⟩).getD text

end Percent

/-! ## Pairs and queries -/

namespace Query

/-- The pieces of a text between occurrences of a character. -/
def pieces (c : Char) (cs : List Char) : List (List Char) := cs.splitOn c

/-- The key of a pair and its value, both still encoded. -/
def splitPair (pair : List Char) : List Char × Option (List Char) :=
  match Target.cutAt '=' pair with
  | (key, some value) => (key, some value)
  | (_, none) =>
    let key := pair.takeWhile (!Char.isDigit ·)
    let value := pair.dropWhile (!Char.isDigit ·)
    if key = [] ∨ value = [] then (pair, none) else (key, some value)

/-- The text that encoded characters stand for. -/
def decode (cs : List Char) : String := Percent.decode (String.ofList cs)

/-- The tag that a pair gives its key. -/
def valueTag (value : Option (List Char)) : Tag :=
  match value with
  | none => .none
  | some value => Tag.infer (decode value)

/-- Adds a pair to the parameters seen before it. -/
def observePair (parameters : ShapeTree) (pair : List Char) : ShapeTree :=
  let (key, value) := splitPair pair
  parameters.observe (decode key) (.scalar (valueTag value))

/-- The tags of the parameters of a query. -/
def parse (query : String) : ShapeTree :=
  ((pieces '&' query.toList).filter (· ≠ [])).foldl observePair ∅

end Query

end TrafficSchema
