import TrafficSchema.Scalar.Numeral
import TrafficSchema.Text.Blank
import TrafficSchema.Text.LowerCase

/-!
# Identifiers

Names in captured traffic are mostly written in camel case. `snakeCase` turns them into words in
lower case with underscores between them. Call capital letters and digits *strong*: a run of
strong characters starts a new word, and so does a strong character in front of a small letter.

Identifiers must not be keywords of the client language (`parameterIdentifier`) or names that
the base class of entities has (`propertyIdentifier`). The digits at the end of the name of an
endpoint are its version (`endpointVersion`).
-/

namespace TrafficSchema.Naming

/-! ## Snake case -/

/-- Capital letters `A` to `Z` and decimal digits. -/
def isStrong (c : Char) : Bool := ('A' ≤ c && c ≤ 'Z') || Text.isDecimalDigit c

/-- Small letters `a` to `z`. -/
def isSmall (c : Char) : Bool := 'a' ≤ c && c ≤ 'z'

/-- Puts a space in front of every run of strong characters. -/
def spaceRuns : List Char → List Char
  | [] => []
  | c :: rest =>
    if isStrong c then
      ' ' :: c :: (rest.takeWhile isStrong ++ spaceRuns (rest.dropWhile isStrong))
    else c :: spaceRuns rest
termination_by cs => cs.length
decreasing_by
  · exact Nat.lt_succ_of_le (List.dropWhile_sublist _).length_le
  · exact Nat.lt_succ_self _

/-- Puts a space in front of every strong character that small letters follow. -/
def spaceWords : List Char → List Char
  | [] => []
  | c :: rest =>
    if isStrong c && (rest.takeWhile isSmall ≠ []) then
      ' ' :: c :: (rest.takeWhile isSmall ++ spaceWords (rest.dropWhile isSmall))
    else c :: spaceWords rest
termination_by cs => cs.length
decreasing_by
  · exact Nat.lt_succ_of_le (List.dropWhile_sublist _).length_le
  · exact Nat.lt_succ_self _

/-- A name as words in lower case with underscores between them. -/
def snakeCase (name : String) : String :=
  let spaced := spaceWords (spaceRuns (name.toList.map fun c => if c = '-' then ' ' else c))
  String.ofList (Text.lowerCase (['_'].intercalate (Text.words spaced)))

/-! ## Identifiers -/

/-- The keywords of the client language. -/
def reservedIdentifiers : List String :=
  ["False", "None", "True", "and", "as", "assert", "async", "await", "break", "class",
    "continue", "def", "del", "elif", "else", "except", "finally", "for", "from", "global",
    "if", "import", "in", "is", "lambda", "nonlocal", "not", "or", "pass", "raise",
    "return", "try", "while", "with", "yield"]

/-- The properties that the base class of entities has. -/
def reservedProperties : List String := ["id"]

/-- Puts an underscore behind a name that is reserved. -/
def avoid (reserved : List String) (name : String) : String :=
  if reserved.contains name then name ++ "_" else name

/-- A name that is no keyword. -/
def safeIdentifier (name : String) : String := avoid reservedIdentifiers name

/-- The identifier of a parameter. -/
def parameterIdentifier (name : String) : String := safeIdentifier (snakeCase name)

/-- The identifier of a property of an entity. -/
def propertyIdentifier (name : String) : String := avoid reservedProperties (snakeCase name)

/-! ## Versions -/

/-- The greatest version; a number beyond it is no version. -/
def maxVersion : Nat := Nat.pow 2 32 - 1

/-- The name of an endpoint without its version, and the version, which is one if the name does
not end in a version. -/
def endpointVersion (name : String) : String × Nat :=
  let unversioned := Text.dropEndWhile Char.isDigit name.toList
  let digits := name.toList.drop unversioned.length
  let version := digitsValue digits
  (String.ofList unversioned, if digits = [] ∨ maxVersion < version then 1 else version)

end TrafficSchema.Naming
