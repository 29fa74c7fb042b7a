/-!
# Base64

`Base64.decode?` reads the standard alphabet with padding. Nothing else may stand between the
digits, the padding has to be complete, and the bits of the last digit that belong to no byte
have to be zero; so every list of bytes has exactly one encoding.
-/

namespace TrafficSchema.Base64

/-- The value of a digit. -/
def digit? (c : Char) : Option Nat :=
  if 'A' ≤ c ∧ c ≤ 'Z' then some (c.toNat - 'A'.toNat)
  else if 'a' ≤ c ∧ c ≤ 'z' then some (c.toNat - 'a'.toNat + 26)
  else if c.isDigit then some (c.toNat - '0'.toNat + 52)
  else if c = '+' then some 62
  else if c = '/' then some 63
  else none

/-- The three bytes that four digits stand for. -/
def bytes? (a b c d : Char) : Option (UInt8 × UInt8 × UInt8) := do
  let n := (((← digit? a) * 64 + (← digit? b)) * 64 + (← digit? c)) * 64 + (← digit? d)
  return (.ofNat (n / 65536), .ofNat (n / 256), .ofNat n)

/-- The bytes that a text stands for. -/
def decode? : List Char → Option (List UInt8)
  | [] => some []
  | [a, b, '=', '='] =>
    match bytes? a b 'A' 'A' with
    | some (x, 0, _) => some [x]
    | _ => none
  | [a, b, c, '='] =>
    match bytes? a b c 'A' with
    | some (x, y, 0) => some [x, y]
    | _ => none
  | a :: b :: c :: d :: rest =>
    match bytes? a b c d, decode? rest with
    | some (x, y, z), some bytes => some (x :: y :: z :: bytes)
    | _, _ => none
  | _ => none

end TrafficSchema.Base64
