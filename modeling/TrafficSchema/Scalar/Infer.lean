import TrafficSchema.Tag
import TrafficSchema.Text.Blank
import TrafficSchema.Scalar.Timestamp

/-!
# The type of a value

`Tag.infer` gives the tag of one captured value, which is always a text. Numerals are tried
first, then the truth values, then timestamps. Blanks around a numeral do not count; around
anything else they do.
-/

namespace TrafficSchema

namespace Tag

/-- The tag of a text in the form of an integer. One that cannot be read as a double, or is beyond
the range of doubles, is no number but opaque text, such as a bit mask; one that a double cannot
hold is a `float`. -/
def ofInteger (cs : List Char) : Tag :=
  match Numeral.read? cs with
  | some n => if n.overflows then str else if n.isExactInteger then int else float
  | Option.none => str

/-- The tag of a text in the form of a decimal number with a point or an exponent. -/
def ofDecimal (cs : List Char) : Tag :=
  match Numeral.read? cs with
  | some n => if n.overflows then str else float
  | Option.none => str

/-- Whether a text is `true` or `false` in any mixture of cases. -/
def isTruthValue (cs : List Char) : Bool :=
  cs.map Char.toLower == "true".toList || cs.map Char.toLower == "false".toList

/-- The tag of a captured value. -/
def infer (value : String) : Tag :=
  if value = "" then none
  else
    let trimmed := Text.trim value.toList
    if Numeral.hasIntegerForm trimmed then ofInteger trimmed
    else if Numeral.hasDecimalForm trimmed then ofDecimal trimmed
    else if isTruthValue value.toList then bool
    else if isTimestamp value then datetime
    else str

end Tag

end TrafficSchema
