import TrafficSchema.Scalar.Numeral

/-!
# JSON values

`Json.Value` is the data model of JSON. An object is the list of its members in the order of
the text; where a key occurs twice, whoever reads the object lets the last member count.
-/

namespace TrafficSchema.Json

/-- A number. An integer is one that is written without point and exponent and fits 64 bits,
signed or unsigned, the integer `-0` excepted; any other number is kept as it is written. -/
inductive Number
  | integer (n : Int)
  | real (n : Numeral)
  deriving DecidableEq

/-- A JSON value. -/
inductive Value
  | null
  | bool (b : Bool)
  | number (n : Number)
  | string (s : String)
  | array (items : List Value)
  | object (members : List (String × Value))
  deriving Inhabited

namespace Number

/-! ## Range

A number is read in steps of double arithmetic: the digits are gathered in a word of 64 bits as
long as they fit, the word is rounded to a double, and the double is multiplied by the double
nearest to a power of ten. A number is out of range if that product is infinite. -/

/-- The greatest integer of 64 bits. -/
def maxWord : Nat := Nat.pow 2 64 - 1

/-- Gathers digits behind those of `word`, up to the first that does not fit; what is left
over is returned too. -/
def gather (word : Nat) : List Char → Nat × List Char
  | [] => (word, [])
  | c :: rest =>
    let next := 10 * word + (c.toNat - '0'.toNat)
    if next ≤ maxWord then gather next rest else (word, c :: rest)

/-- Whether a numeral can be read as a double. -/
def inRange (n : Numeral) : Bool :=
  let (high, dropped) := gather 0 n.whole
  let fraction := n.fraction.getD []
  let (word, skipped) := gather high fraction
  let exponent : Int :=
    n.exponent.getD 0 + dropped.length - (fraction.length - skipped.length : Nat)
  let factor := Double.roundNat word
  factor = 0 || exponent < 0 ||
    exponent ≤ 308 &&
      factor * Double.roundNat (Nat.pow 10 exponent.toNat) < Double.overflowBound

/-- The number that a numeral stands for, if it is in range. -/
def ofNumeral? (n : Numeral) : Option Number :=
  let magnitude := digitsValue n.whole
  if n.isInteger && !n.negative && magnitude ≤ maxWord then
    some (integer magnitude)
  else if n.isInteger && n.negative && 0 < magnitude && magnitude ≤ Nat.pow 2 63 then
    some (integer (-magnitude))
  else if inRange n then some (real n)
  else none

end Number

end TrafficSchema.Json
