import TrafficSchema.Text.LetterTables

/-!
# Lower case

`lowerCase` maps a text to lower case by the full Unicode rules. These differ from the mapping
of single characters in two places: the capital I with a dot becomes two characters, and a
capital sigma at the end of a word becomes a final sigma.
-/

namespace TrafficSchema.Text

/-- Whether a number lies in one of some ranges. -/
def inRanges (ranges : List (Nat × Nat)) (n : Nat) : Bool :=
  ranges.any fun (first, last) => first ≤ n && n ≤ last

/-- Whether the first character that is not passed over has a case. -/
def startsCased (cs : List Char) : Bool :=
  match cs.dropWhile (inRanges caseIgnorable ·.toNat) with
  | [] => false
  | c :: _ => inRanges cased c.toNat

/-- The lower case of a character by itself. -/
def lowerChar (c : Char) : Char :=
  let n := c.toNat
  match lowerCaseMappings.find? fun (first, last, step, _) =>
      first ≤ n && n ≤ last && (n - first) % step == 0 with
  | none => c
  | some (first, _, _, image) => Char.ofNat (image + (n - first))

/-- The lower case of a text; `before` is what stands in front of it, in reverse order. -/
def lowerCaseAfter (before : List Char) : List Char → List Char
  | [] => []
  | c :: rest =>
    let image :=
      if c = '\u03A3' then
        [if startsCased before && !startsCased rest then '\u03C2' else '\u03C3']
      else if c = '\u0130' then ['i', '\u0307']
      else [lowerChar c]
    image ++ lowerCaseAfter (c :: before) rest

/-- The lower case of a text. -/
def lowerCase (cs : List Char) : List Char := lowerCaseAfter [] cs

end TrafficSchema.Text
