import TrafficSchema.Scalar.Timestamp
import TrafficSchema.Toml.Value

/-!
# Reading TOML

`Toml.read?` reads a document of TOML 1.0. The functions on the way take characters off the
front of a text and return what follows; `none` means that the text is not TOML.

Arrays and tables in braces may be nested 79 levels deep, and a path may have as many keys.
-/

namespace TrafficSchema.Toml

/-! ## White space, line ends and comments -/

/-- Space and tab. -/
def isSpace (c : Char) : Bool := c == ' ' || c == '\t'

/-- Passes over spaces. -/
def skipSpaces (cs : List Char) : List Char := cs.dropWhile isSpace

/-- Characters that may stand in comments and between quotes: no control characters but the
tab. -/
def isPrintable (c : Char) : Bool := c == '\t' || (0x20 ≤ c.toNat && c.toNat ≠ 0x7F)

/-- What follows the end of a line. -/
def lineEnd? : List Char → Option (List Char)
  | '\n' :: rest => some rest
  | '\r' :: '\n' :: rest => some rest
  | _ => none

/-- Passes over a comment, if there is one. -/
def skipComment : List Char → List Char
  | '#' :: rest => rest.dropWhile isPrintable
  | cs => cs

/-- Passes over spaces and a comment up to the end of the line or of the text. -/
def endOfLine? (cs : List Char) : Option (List Char) :=
  match skipComment (skipSpaces cs) with
  | [] => some []
  | cs => lineEnd? cs

/-- Passes over spaces, comments and line ends, `fuel` lines at most. -/
def skipLines : (fuel : Nat) → List Char → List Char
  | 0, cs => cs
  | fuel + 1, cs =>
    let cs := skipSpaces cs
    match lineEnd? (skipComment cs) with
    | none => cs
    | some rest => skipLines fuel rest

/-- Passes over spaces, comments and line ends. -/
def skipAll (cs : List Char) : List Char := skipLines cs.length cs

/-! ## Strings -/

/-- The character with a hexadecimal number. -/
def unicode? (digits : List Char) : Option Char := do
  let value (c : Char) : Option Nat :=
    if c.isDigit then some (c.toNat - '0'.toNat)
    else if 'a' ≤ c ∧ c ≤ 'f' then some (c.toNat - 'a'.toNat + 10)
    else if 'A' ≤ c ∧ c ≤ 'F' then some (c.toNat - 'A'.toNat + 10)
    else none
  let n ← digits.foldlM (fun n c => (value c).map (16 * n + ·)) 0
  if n.isValidChar then some (Char.ofNat n) else none

/-- The character that follows a backslash. -/
def escape? : List Char → Option (Char × List Char)
  | 'b' :: rest => some ('\x08', rest)
  | 't' :: rest => some ('\t', rest)
  | 'n' :: rest => some ('\n', rest)
  | 'f' :: rest => some ('\x0c', rest)
  | 'r' :: rest => some ('\r', rest)
  | '"' :: rest => some ('"', rest)
  | '\\' :: rest => some ('\\', rest)
  | 'u' :: a :: b :: c :: d :: rest => (unicode? [a, b, c, d]).map (·, rest)
  | 'U' :: a :: b :: c :: d :: e :: f :: g :: h :: rest =>
    (unicode? [a, b, c, d, e, f, g, h]).map (·, rest)
  | _ => none

/-- Passes over spaces and line ends. -/
def skipBlankLines : List Char → List Char
  | [] => []
  | '\r' :: '\n' :: rest => skipBlankLines rest
  | c :: rest => if isSpace c || c == '\n' then skipBlankLines rest else c :: rest

/-- What follows a line break that a backslash takes out of a text, along with the space at the
start of the next lines. -/
def joinedLine? (cs : List Char) : Option (List Char) := do
  return skipBlankLines (← lineEnd? (skipSpaces cs))

/-- The rest of a string on one line up to the quote. -/
def lineString? (quote : Char) (escapes : Bool) :
    (fuel : Nat) → List Char → Option (List Char × List Char)
  | 0, _ | _, [] => none
  | fuel + 1, c :: rest =>
    if c = quote then some ([], rest)
    else if c = '\\' ∧ escapes then do
      let (c, rest) ← escape? rest
      let (text, rest) ← lineString? quote escapes fuel rest
      return (c :: text, rest)
    else if isPrintable c then do
      let (text, rest) ← lineString? quote escapes fuel rest
      return (c :: text, rest)
    else none

/-- The rest of a string on several lines up to three quotes; one or two quotes in front of
these belong to the text. -/
def blockString? (quote : Char) (escapes : Bool) :
    (fuel : Nat) → List Char → Option (List Char × List Char)
  | 0, _ | _, [] => none
  | fuel + 1, c :: rest =>
    let run := (c :: rest).takeWhile (· == quote)
    if 3 ≤ run.length then
      if run.length ≤ 5 then some (run.drop 3, (c :: rest).drop run.length) else none
    else if c = '\\' ∧ escapes then
      match joinedLine? rest with
      | some rest => blockString? quote escapes fuel rest
      | none => do
        let (c, rest) ← escape? rest
        let (text, rest) ← blockString? quote escapes fuel rest
        return (c :: text, rest)
    else match lineEnd? (c :: rest) with
      | some rest => do
        let (text, rest) ← blockString? quote escapes fuel rest
        return ('\n' :: text, rest)
      | none =>
        if isPrintable c then do
          let (text, rest) ← blockString? quote escapes fuel rest
          return (c :: text, rest)
        else none

/-- The string that starts a text. -/
def string? (cs : List Char) : Option (String × List Char) :=
  let block (quote : Char) (escapes : Bool) (rest : List Char) :=
    blockString? quote escapes (rest.length + 1) ((lineEnd? rest).getD rest)
  let result := match cs with
    | '"' :: '"' :: '"' :: rest => block '"' true rest
    | '\'' :: '\'' :: '\'' :: rest => block '\'' false rest
    | '"' :: rest => lineString? '"' true (rest.length + 1) rest
    | '\'' :: rest => lineString? '\'' false (rest.length + 1) rest
    | _ => none
  result.map fun (text, rest) => (String.ofList text, rest)

/-! ## Keys -/

/-- Characters of a key without quotes. -/
def isBare (c : Char) : Bool := c.isAlphanum || c == '_' || c == '-'

/-- The key that starts a text. -/
def simpleKey? (cs : List Char) : Option (String × List Char) :=
  match cs with
  | '"' :: rest => (lineString? '"' true (rest.length + 1) rest).map fun (text, rest) =>
    (String.ofList text, rest)
  | '\'' :: rest => (lineString? '\'' false (rest.length + 1) rest).map fun (text, rest) =>
    (String.ofList text, rest)
  | _ =>
    let key := cs.takeWhile isBare
    if key = [] then none else some (String.ofList key, cs.dropWhile isBare)

/-- The greatest number of keys in a path, and of levels of nesting. -/
def maxDepth : Nat := 79

/-- The path that starts a text, `limit` keys at most, with points between the keys. -/
def path? : (limit : Nat) → List Char → Option (List String × List Char)
  | 0, _ => none
  | limit + 1, cs => do
    let (key, rest) ← simpleKey? (skipSpaces cs)
    match skipSpaces rest with
    | '.' :: rest => do
      let (path, rest) ← path? limit rest
      return (key :: path, rest)
    | rest => return ([key], rest)

/-! ## Numbers -/

/-- Digits, between which single underscores may stand, without the underscores. -/
def ungrouped? (isDigit : Char → Bool) : List Char → Option (List Char)
  | [] => none
  | [c] => if isDigit c then some [c] else none
  | c :: '_' :: rest => if isDigit c then (ungrouped? isDigit rest).map (c :: ·) else none
  | c :: rest => if isDigit c then (ungrouped? isDigit rest).map (c :: ·) else none

/-- The value of a digit in any base. -/
def digitValue (c : Char) : Nat :=
  if c.isDigit then c.toNat - '0'.toNat
  else if 'a' ≤ c ∧ c ≤ 'z' then c.toNat - 'a'.toNat + 10
  else if 'A' ≤ c ∧ c ≤ 'Z' then c.toNat - 'A'.toNat + 10
  else 36

/-- The integer that digits in a base stand for. -/
def basedInteger? (base : Nat) (digits : List Char) : Option Int := do
  let digits ← ungrouped? (digitValue · < base) digits
  let n := digits.foldl (fun n c => base * n + digitValue c) 0
  if n < Nat.pow 2 63 then some n else none

/-- The whole number, without sign, that a text consists of; it has no needless zeros. -/
def wholeDigits? (cs : List Char) : Option (List Char) := do
  let digits ← ungrouped? Char.isDigit cs
  if digits.head? = some '0' ∧ digits.length ≠ 1 then none else some digits

/-- The integer that a text consists of. -/
def integer? : List Char → Option Int
  | '0' :: 'x' :: digits => basedInteger? 16 digits
  | '0' :: 'o' :: digits => basedInteger? 8 digits
  | '0' :: 'b' :: digits => basedInteger? 2 digits
  | cs => do
    let (negative, digits) := Numeral.splitSign cs
    let n := digitsValue (← wholeDigits? digits)
    if negative then (if n ≤ Nat.pow 2 63 then some (-n) else none)
    else if n < Nat.pow 2 63 then some n else none

/-- Splits a text at the first character that passes a test. -/
def splitFirst (p : Char → Bool) (cs : List Char) : List Char × Option (List Char) :=
  match cs.dropWhile (!p ·) with
  | [] => (cs, none)
  | _ :: rest => (cs.takeWhile (!p ·), some rest)

/-- Whether a text is a floating-point number. One that rounds to positive infinity is none. -/
def isFloat (cs : List Char) : Bool :=
  let (negative, body) := Numeral.splitSign cs
  body == "inf".toList || body == "nan".toList ||
    let (decimal, exponent) := splitFirst (fun c => c == 'e' || c == 'E') body
    let (whole, fraction) := splitFirst (· == '.') decimal
    let digits : Option (List Char) → Option (List Char)
      | none => some []
      | some cs => ungrouped? Char.isDigit cs
    match wholeDigits? whole, digits fraction, digits (exponent.map (Numeral.splitSign · |>.2)) with
    | some w, some f, some e =>
      let negativeExponent := (exponent.map (Numeral.splitSign · |>.1)).getD false
      let power : Int := digitsValue e
      let n : Numeral := ⟨negative, w, some f, some (if negativeExponent then -power else power)⟩
      (fraction.isSome || exponent.isSome) && (negative || !n.overflows)
    | _, _, _ => false

/-! ## Dates and times -/

/-- The normal text of the fraction of a second: nine digits at most, no zeros at the end. -/
def fractionText (digits : List Char) : List Char :=
  match ((digits.take 9).reverse.dropWhile (· == '0')).reverse with
  | [] => []
  | digits => '.' :: digits

/-- The normal text of the time that starts a text, and what follows it. -/
def time? : List Char → Option (List Char × List Char)
  | h₁ :: h₂ :: ':' :: m₁ :: m₂ :: ':' :: s₁ :: s₂ :: rest =>
    if [h₁, h₂, m₁, m₂, s₁, s₂].all Char.isDigit &&
        Calendar.isTime (digitsValue [h₁, h₂]) (digitsValue [m₁, m₂]) (digitsValue [s₁, s₂]) then
      let text := [h₁, h₂, ':', m₁, m₂, ':', s₁, s₂]
      match rest with
      | '.' :: rest =>
        let (digits, rest) := Numeral.splitDigits rest
        if digits = [] then none else some (text ++ fractionText digits, rest)
      | rest => some (text, rest)
    else none
  | _ => none

/-- The normal text of the offset that a text consists of; there may be none. -/
def offset? : List Char → Option (List Char)
  | [] => some []
  | ['Z'] | ['z'] => some ['Z']
  | [sign, h₁, h₂, ':', m₁, m₂] =>
    if (sign = '+' ∨ sign = '-') ∧ [h₁, h₂, m₁, m₂].all Char.isDigit ∧
        digitsValue [h₁, h₂] ≤ 23 ∧ digitsValue [m₁, m₂] ≤ 59 then
      let isZero := [h₁, h₂, m₁, m₂].all (· == '0')
      some [if isZero then '+' else sign, h₁, h₂, ':', m₁, m₂]
    else none
  | _ => none

/-- The normal text of a time with an offset or none. -/
def offsetTime? (cs : List Char) : Option (List Char) := do
  let (time, rest) ← time? cs
  return time ++ (← offset? rest)

/-- The date that starts a text, and what follows it. -/
def date? : List Char → Option (List Char × List Char)
  | y₁ :: y₂ :: y₃ :: y₄ :: '-' :: m₁ :: m₂ :: '-' :: d₁ :: d₂ :: rest =>
    if [y₁, y₂, y₃, y₄, m₁, m₂, d₁, d₂].all Char.isDigit &&
        Calendar.isDate (digitsValue [y₁, y₂, y₃, y₄]) (digitsValue [m₁, m₂])
          (digitsValue [d₁, d₂]) then
      some ([y₁, y₂, y₃, y₄, '-', m₁, m₂, '-', d₁, d₂], rest)
    else none
  | _ => none

/-- The normal text of a date, of a time, or of both. -/
def moment? (cs : List Char) : Option (List Char) :=
  match date? cs with
  | some (date, []) => some date
  | some (date, delimiter :: rest) =>
    if delimiter = 'T' ∨ delimiter = 't' ∨ delimiter = ' ' then
      (offsetTime? rest).map fun time => date ++ 'T' :: time
    else none
  | none =>
    match time? cs with
    | some (time, []) => some time
    | _ => none

/-! ## Values -/

/-- Characters of numbers, dates and the names of values. -/
def isScalarChar (c : Char) : Bool := isBare c || c == '+' || c == '.' || c == ':'

/-- The value that a text without brackets and quotes stands for. -/
def scalar? (cs : List Char) : Option Value :=
  if cs = "true".toList then some (.bool true)
  else if cs = "false".toList then some (.bool false)
  else match moment? cs with
    | some text => some (.moment (String.ofList text))
    | none =>
      match integer? cs with
      | some n => some (.integer n)
      | none => if isFloat cs then some .float else none

/-- The value without brackets and quotes that starts a text. A space may stand between a date
and a time. -/
def scalarValue? (cs : List Char) : Option (Value × List Char) :=
  let word := cs.takeWhile isScalarChar
  let rest := cs.drop word.length
  let joined := match date? word, rest with
    | some (_, []), ' ' :: more =>
      let time := more.takeWhile isScalarChar
      (offsetTime? time).bind fun _ =>
        (scalar? (word ++ ' ' :: time)).map (·, more.drop time.length)
    | _, _ => none
  joined.or ((scalar? word).map (·, rest))

/-- The items of an array up to the closing bracket. -/
def items? {α : Type} (item? : List Char → Option (α × List Char)) :
    (fuel : Nat) → List Char → Option (List α × List Char)
  | 0, _ => none
  | fuel + 1, cs =>
    match skipAll cs with
    | ']' :: rest => some ([], rest)
    | cs => do
      let (item, rest) ← item? cs
      match skipAll rest with
      | ',' :: rest => do
        let (items, rest) ← items? item? fuel rest
        return (item :: items, rest)
      | ']' :: rest => return ([item], rest)
      | _ => none

/-- The pairs of a table in braces up to the closing brace; there is at least one. -/
def pairs? {α : Type} (pair? : List Char → Option (α × List Char)) :
    (fuel : Nat) → List Char → Option (List α × List Char)
  | 0, _ => none
  | fuel + 1, cs => do
    let (pair, rest) ← pair? cs
    match skipSpaces rest with
    | ',' :: rest => do
      let (pairs, rest) ← pairs? pair? fuel rest
      return (pair :: pairs, rest)
    | '}' :: rest => return ([pair], rest)
    | _ => none

/-- A path, an equals sign and a value. -/
def pair? (value? : List Char → Option (Value × List Char)) (cs : List Char) :
    Option ((List String × Value) × List Char) := do
  let (path, rest) ← path? maxDepth cs
  match rest with
  | '=' :: rest => do
    let (value, rest) ← value? (skipSpaces rest)
    return ((path, value), rest)
  | _ => none

/-- The value that starts a text, nested `depth` levels at most. -/
def value? : (depth : Nat) → List Char → Option (Value × List Char)
  | _, '"' :: rest => (string? ('"' :: rest)).map fun (s, rest) => (.string s, rest)
  | _, '\'' :: rest => (string? ('\'' :: rest)).map fun (s, rest) => (.string s, rest)
  | 0, '[' :: _ => none
  | 0, '{' :: _ => none
  | depth + 1, '[' :: rest =>
    (items? (value? depth) (rest.length + 1) rest).map fun (items, rest) => (.array items, rest)
  | depth + 1, '{' :: rest =>
    match skipSpaces rest with
    | '}' :: rest => some (.table .inline [], rest)
    | rest => do
      let (pairs, rest) ← pairs? (pair? (value? depth)) (rest.length + 1) rest
      return (.table .inline (← Members.ofPairs? pairs), rest)
  | _, cs => scalarValue? cs

/-! ## Documents -/

/-- The statement that starts a text. -/
def statement? (cs : List Char) : Option (Statement × List Char) :=
  match cs with
  | '[' :: '[' :: rest => do
    let (path, rest) ← path? maxDepth rest
    match rest with
    | ']' :: ']' :: rest => return (.listHeader path, rest)
    | _ => none
  | '[' :: rest => do
    let (path, rest) ← path? maxDepth rest
    match rest with
    | ']' :: rest => return (.header path, rest)
    | _ => none
  | _ => do
    let ((path, value), rest) ← pair? (value? maxDepth) cs
    return (.pair path value, rest)

/-- The statements of a text, at most one on a line. -/
def statements? : (fuel : Nat) → List Char → Option (List Statement)
  | 0, _ => none
  | fuel + 1, cs =>
    match skipAll cs with
    | [] => some []
    | '#' :: rest => if rest.dropWhile isPrintable = [] then some [] else none
    | cs => do
      let (statement, rest) ← statement? cs
      let rest ← endOfLine? rest
      return statement :: (← statements? fuel rest)

/-- The table that a document describes. A byte order mark at its start is passed over. -/
def read? (text : String) : Option Members := do
  let cs := match text.toList with
    | '\uFEFF' :: cs => cs
    | cs => cs
  Members.ofStatements? (← statements? (cs.length + 1) cs)

end TrafficSchema.Toml
