/-!
# Decimal numerals

A numeral is an optional sign, digits with at most one point in any place, and an optional
exponent. Digits of all scripts (`Text.isDecimalDigit`) give a text the form of a numeral
(`Numeral.hasIntegerForm`, `Numeral.hasDecimalForm`), but only one with ASCII digits can be read as
a number. `Numeral.read?` reads it, as its parts; the rest of the module decides, exactly, how a
numeral relates to the numbers that a double-precision float can hold:

* `Numeral.overflows`: the value rounds to infinity, that is, its magnitude is at least
  `Double.overflowBound`, half a unit above the largest finite double;
* `Numeral.isExactInteger`: an integer survives being rounded to a double and cut back to 128
  bits.
-/

namespace TrafficSchema

/-! ## Digits of all scripts

These are the characters of the Unicode category `Nd`.
-/

namespace Text

/-- The first and the last digit of every run of decimal digits. -/
def decimalDigits : List (Nat × Nat) :=
  [(0x30, 0x39), (0x660, 0x669), (0x6F0, 0x6F9), (0x7C0, 0x7C9), (0x966, 0x96F), (0x9E6, 0x9EF),
    (0xA66, 0xA6F), (0xAE6, 0xAEF), (0xB66, 0xB6F), (0xBE6, 0xBEF), (0xC66, 0xC6F), (0xCE6, 0xCEF),
    (0xD66, 0xD6F), (0xDE6, 0xDEF), (0xE50, 0xE59), (0xED0, 0xED9), (0xF20, 0xF29),
    (0x1040, 0x1049), (0x1090, 0x1099), (0x17E0, 0x17E9), (0x1810, 0x1819), (0x1946, 0x194F),
    (0x19D0, 0x19D9), (0x1A80, 0x1A89), (0x1A90, 0x1A99), (0x1B50, 0x1B59), (0x1BB0, 0x1BB9),
    (0x1C40, 0x1C49), (0x1C50, 0x1C59), (0xA620, 0xA629), (0xA8D0, 0xA8D9), (0xA900, 0xA909),
    (0xA9D0, 0xA9D9), (0xA9F0, 0xA9F9), (0xAA50, 0xAA59), (0xABF0, 0xABF9), (0xFF10, 0xFF19),
    (0x104A0, 0x104A9), (0x10D30, 0x10D39), (0x10D40, 0x10D49), (0x11066, 0x1106F),
    (0x110F0, 0x110F9), (0x11136, 0x1113F), (0x111D0, 0x111D9), (0x112F0, 0x112F9),
    (0x11450, 0x11459), (0x114D0, 0x114D9), (0x11650, 0x11659), (0x116C0, 0x116C9),
    (0x116D0, 0x116E3), (0x11730, 0x11739), (0x118E0, 0x118E9), (0x11950, 0x11959),
    (0x11BF0, 0x11BF9), (0x11C50, 0x11C59), (0x11D50, 0x11D59), (0x11DA0, 0x11DA9),
    (0x11F50, 0x11F59), (0x16130, 0x16139), (0x16A60, 0x16A69), (0x16AC0, 0x16AC9),
    (0x16B50, 0x16B59), (0x16D70, 0x16D79), (0x1CCF0, 0x1CCF9), (0x1D7CE, 0x1D7FF),
    (0x1E140, 0x1E149), (0x1E2F0, 0x1E2F9), (0x1E4F0, 0x1E4F9), (0x1E5F1, 0x1E5FA),
    (0x1E950, 0x1E959), (0x1FBF0, 0x1FBF9)]

/-- Whether a character is a decimal digit of any script. -/
def isDecimalDigit (c : Char) : Bool :=
  decimalDigits.any fun (first, last) => first ≤ c.toNat && c.toNat ≤ last

end Text

/-! ## Doubles, on natural numbers -/

namespace Double

/-- The least magnitude that rounds to infinity: halfway between the largest finite double,
`2 ^ 1024 - 2 ^ 971`, and the next power of two, where the tie goes to the even side. -/
def overflowBound : Nat := Nat.pow 2 1024 - Nat.pow 2 970

/-- The double nearest to a natural number below `overflowBound`; of two at the same distance
the one with an even significand. -/
def roundNat (n : Nat) : Nat :=
  if n < Nat.pow 2 53 then n
  else
    let unit := Nat.pow 2 (n.log2 - 52)
    let below := n / unit
    let excess := n % unit
    if 2 * excess < unit ∨ (2 * excess = unit ∧ below % 2 = 0) then below * unit
    else (below + 1) * unit

/-- Whether `significand * 10 ^ exponent` is at least `overflowBound`. Powers of ten that
alone decide the answer are not computed: `digits` bounds the length of the significand. -/
def overflowsScaled (significand digits : Nat) (exponent : Int) : Bool :=
  if significand = 0 then false
  else match exponent with
    | .ofNat e => e ≥ 309 || overflowBound ≤ significand * Nat.pow 10 e
    | .negSucc e => e < digits && overflowBound * Nat.pow 10 (e + 1) ≤ significand

end Double

/-! ## Reading -/

/-- The number that a string of decimal digits stands for. -/
def digitsValue (digits : List Char) : Nat :=
  digits.foldl (fun n c => 10 * n + (c.toNat - '0'.toNat)) 0

/-- The parts of a numeral. -/
structure Numeral where
  negative : Bool
  /-- The digits before the point. -/
  whole : List Char
  /-- The digits after the point, if there is a point. -/
  fraction : Option (List Char)
  /-- The power of ten behind the `e`, if there is one. -/
  exponent : Option Int
  deriving DecidableEq

namespace Numeral

/-- Takes a sign off the front of a text. -/
def splitSign : List Char → Bool × List Char
  | '-' :: rest => (true, rest)
  | '+' :: rest => (false, rest)
  | cs => (false, cs)

/-- Takes the digits off the front of a text. -/
def splitDigits (cs : List Char) : List Char × List Char :=
  (cs.takeWhile Char.isDigit, cs.dropWhile Char.isDigit)

/-- The exponent that a text consists of: `e` or `E`, a sign or none, and digits. -/
def exponent? : List Char → Option Int
  | c :: rest =>
    if c = 'e' ∨ c = 'E' then
      let (negative, digits) := splitSign rest
      if digits ≠ [] ∧ digits.all Char.isDigit then
        let n : Int := digitsValue digits
        some (if negative then -n else n)
      else none
    else none
  | [] => none

/-- The sign of a text, the digits after it, the digits after a point, if one follows, and the
rest. What counts as a digit is given. -/
def split (digit : Char → Bool) (cs : List Char) :
    Bool × List Char × Option (List Char) × List Char :=
  let (negative, cs) := splitSign cs
  let whole := cs.takeWhile digit
  match cs.dropWhile digit with
  | '.' :: rest => (negative, whole, some (rest.takeWhile digit), rest.dropWhile digit)
  | rest => (negative, whole, none, rest)

/-- The numeral that a text consists of. -/
def read? (cs : List Char) : Option Numeral :=
  let (negative, whole, fraction, rest) := split Char.isDigit cs
  if whole ++ fraction.getD [] = [] then none
  else if rest = [] then some ⟨negative, whole, fraction, none⟩
  else (exponent? rest).map fun e => ⟨negative, whole, fraction, some e⟩

/-! ## Form -/

/-- Whether a text is a sign or none, and then digits of any script. -/
def hasIntegerForm (cs : List Char) : Bool :=
  let digits := (splitSign cs).2
  digits ≠ [] && digits.all Text.isDecimalDigit

/-- Whether a text is `e` or `E` and then an integer. -/
def hasExponentForm : List Char → Bool
  | c :: rest => (c == 'e' || c == 'E') && hasIntegerForm rest
  | [] => false

/-- Whether a text is a sign or none, then digits of any script with at most one point in any
place, and then an exponent or nothing. -/
def hasDecimalForm (cs : List Char) : Bool :=
  let (_, whole, fraction, rest) := split Text.isDecimalDigit cs
  whole ++ fraction.getD [] ≠ [] && (rest == [] || hasExponentForm rest)

/-! ## Value -/

/-- A numeral without a point and without an exponent. -/
def isInteger (n : Numeral) : Bool := n.fraction.isNone && n.exponent.isNone

/-- All digits, the point left out. -/
def digits (n : Numeral) : List Char := n.whole ++ n.fraction.getD []

/-- The power of ten by which the digits, read as an integer, are scaled. -/
def scale (n : Numeral) : Int := n.exponent.getD 0 - (n.fraction.getD []).length

/-- Whether a double cannot hold the magnitude of the numeral. -/
def overflows (n : Numeral) : Bool :=
  Double.overflowsScaled (digitsValue n.digits) n.digits.length n.scale

/-- Whether an integer is the same after it has been rounded to a double and the double cut to
a signed integer of 128 bits, values outside its range going to its nearest end. -/
def isExactInteger (n : Numeral) : Bool :=
  let magnitude := digitsValue n.whole
  let limit := if n.negative then Nat.pow 2 127 else Nat.pow 2 127 - 1
  magnitude ≤ limit && min (Double.roundNat magnitude) limit == magnitude

end Numeral

end TrafficSchema
