import Mathlib.Data.List.TakeWhile
import TrafficSchema.Generator.Naming
import TrafficSchema.Proofs.Encoding.Utf8

/-!
# The words of a name

`Naming.snakeCase` puts spaces in front of runs of strong characters, then in front of strong
characters that small letters follow, and cuts the text at its blanks. All in all a name is cut by a
rule that looks at one character and its two neighbours (`Naming.startsWord`): a name in snake case
is the words that this rule gives, in lower case, with underscores between them
(`Naming.snakeCase_eq`). The words hold all characters of the name but hyphens and blanks, in order
(`Naming.flatten_wordsOf`).

Both passes are first stated character by character: `Naming.spaceRuns_eq` with a flag that tells
whether the text before ends in a strong character, and `Naming.spaceWords_cons` with the character
that comes next.
-/

namespace TrafficSchema

/-! ## Pieces of lists -/

theorem flatten_modifyHead_cons {α : Type*} (a : α) {pieces : List (List α)} (h : pieces ≠ []) :
    (pieces.modifyHead (a :: ·)).flatten = a :: pieces.flatten := by
  cases pieces with
  | nil => exact absurd rfl h
  | cons piece pieces => rfl

theorem forall_mem_intercalate {α : Type*} {p : α → Prop} {sep : List α} {parts : List (List α)}
    (hsep : ∀ a ∈ sep, p a) (hparts : ∀ a ∈ parts.flatten, p a) :
    ∀ a ∈ sep.intercalate parts, p a := by
  induction parts with
  | nil => simp
  | cons part parts ih =>
    cases parts with
    | nil => simpa using hparts
    | cons next parts =>
      rw [List.flatten_cons, List.forall_mem_append] at hparts
      rw [List.intercalate_cons_cons]
      simp only [List.forall_mem_append]
      exact ⟨⟨hparts.1, hsep⟩, ih hparts.2⟩

/-! ## Lower case -/

namespace Text

/-- The first mapping is the one of the capital letters of ASCII, and all others begin beyond it. -/
theorem lowerChar_of_ascii {c : Char} (h : c.toNat < 128) : lowerChar c = c.toLower := by
  have htable : lowerCaseMappings = (65, 90, 1, 97) :: lowerCaseMappings.tail := rfl
  have hbeyond : ∀ row ∈ lowerCaseMappings.tail, 128 ≤ row.1 := by decide +kernel
  have hcapital : lowerChar c =
      if 65 ≤ c.toNat ∧ c.toNat ≤ 90 then Char.ofNat (97 + (c.toNat - 65)) else c := by
    simp only [lowerChar]
    rw [htable, List.find?_cons, List.find?_eq_none.2, Nat.mod_one, ← Bool.decide_and]
    · by_cases hc : 65 ≤ c.toNat ∧ c.toNat ≤ 90 <;> simp [hc]
    · intro row hrow
      have hfirst : ¬ row.1 ≤ c.toNat := not_le.2 (h.trans_le (hbeyond row hrow))
      simp [hfirst]
  rw [hcapital]
  exact Utf8.forall_of_toNat_lt (p := fun c =>
    (if 65 ≤ c.toNat ∧ c.toNat ≤ 90 then Char.ofNat (97 + (c.toNat - 65)) else c) = c.toLower)
    (by decide +kernel) h

theorem lowerCaseAfter_of_ascii {cs : List Char} (h : ∀ c ∈ cs, c.toNat < 128)
    (before : List Char) : lowerCaseAfter before cs = cs.map Char.toLower := by
  induction cs generalizing before with
  | nil => rfl
  | cons c rest ih =>
    obtain ⟨hc, hrest⟩ := List.forall_mem_cons.1 h
    have hsigma : c ≠ '\u03A3' := by
      rintro rfl
      exact absurd hc (by decide)
    have hdotted : c ≠ '\u0130' := by
      rintro rfl
      exact absurd hc (by decide)
    simp only [lowerCaseAfter, if_neg hsigma, if_neg hdotted, lowerChar_of_ascii hc, ih hrest,
      List.singleton_append, List.map_cons]

/-- The lower case of an ASCII text is that of its letters. -/
theorem lowerCase_of_ascii {cs : List Char} (h : ∀ c ∈ cs, c.toNat < 128) :
    lowerCase cs = cs.map Char.toLower :=
  lowerCaseAfter_of_ascii h []

end Text

namespace Naming

/-! ## The local rule -/

/-- What stands between words and is dropped. -/
def isSeparator (c : Char) : Bool := c == '-' || Text.isBlank c

section Words

variable (strong : Char → Bool)

/-- Whether a word starts at a character, given its neighbours: it has to be strong, and either it
does not follow a strong one or a small letter follows it. -/
def startsWord (before : Option Char) (c : Char) (after : Option Char) : Bool :=
  strong c && (!before.any strong || after.any isSmall)

/-- The pieces of a text. It is cut at separators, which are dropped, and where words start;
`before` is the character in front of the text. -/
def piecesOf (before : Option Char) : List Char → List (List Char)
  | [] => [[]]
  | c :: rest =>
    let pieces := piecesOf (some c) rest
    if isSeparator c then [] :: pieces
    else if startsWord strong before c rest.head? then [] :: pieces.modifyHead (c :: ·)
    else pieces.modifyHead (c :: ·)

/-- The words of a name: the pieces of it that are not empty. -/
def wordsOf (name : List Char) : List (List Char) := (piecesOf strong none name).filter (· ≠ [])

variable {strong}

theorem piecesOf_ne_nil (before : Option Char) (cs : List Char) :
    piecesOf strong before cs ≠ [] := by
  induction cs generalizing before with
  | nil => simp [piecesOf]
  | cons c rest ih =>
    rw [piecesOf]
    split_ifs <;> simp [ih (some c)]

theorem flatten_piecesOf (before : Option Char) (cs : List Char) :
    (piecesOf strong before cs).flatten = cs.filter (!isSeparator ·) := by
  induction cs generalizing before with
  | nil => rfl
  | cons c rest ih =>
    have hpush : ((piecesOf strong (some c) rest).modifyHead (c :: ·)).flatten =
        c :: rest.filter (!isSeparator ·) := by
      rw [flatten_modifyHead_cons c (piecesOf_ne_nil (some c) rest), ih]
    rw [piecesOf, List.filter_cons]
    by_cases hc : isSeparator c
    · simp [hc, ih]
    · simp only [hc, Bool.false_eq_true, if_false, Bool.not_false, if_true]
      split
      · rw [List.flatten_cons, List.nil_append, hpush]
      · exact hpush

/-- **No character is lost, repeated or moved**, apart from the separators, which are dropped. -/
theorem flatten_wordsOf (name : List Char) :
    (wordsOf strong name).flatten = name.filter (!isSeparator ·) := by
  rw [wordsOf, List.flatten_filter_ne_nil, flatten_piecesOf]

theorem piecesOf_congr {strong' : Char → Bool} {before : Option Char} {cs : List Char}
    (hcs : ∀ c ∈ cs, strong c = strong' c) (hbefore : before.any strong = before.any strong') :
    piecesOf strong before cs = piecesOf strong' before cs := by
  induction cs generalizing before with
  | nil => rfl
  | cons c rest ih =>
    obtain ⟨hc, hrest⟩ := List.forall_mem_cons.1 hcs
    have hnext : piecesOf strong (some c) rest = piecesOf strong' (some c) rest := ih hrest hc
    rw [piecesOf, piecesOf, startsWord, startsWord, hc, hbefore, hnext]

end Words

/-! ## Strong characters are neither small nor blank -/

theorem isStrong_eq_false_of_isSmall {c : Char} (h : isSmall c) : isStrong c = false := by
  have hc : c.toNat < 128 := by
    have hz : c ≤ 'z' := by
      simp only [isSmall, Bool.and_eq_true, decide_eq_true_eq] at h
      exact h.2
    have hle : c.toNat ≤ 'z'.toNat := hz
    have hz' : 'z'.toNat = 122 := rfl
    omega
  exact Utf8.forall_of_toNat_lt (p := fun c => isSmall c → isStrong c = false)
    (by decide +kernel) hc h

/-- The numbers of the blank characters. -/
def blankNumbers : List ℕ :=
  [9, 10, 11, 12, 13, 0x20, 0x85, 0xA0, 0x1680, 0x2000, 0x2001, 0x2002, 0x2003, 0x2004, 0x2005,
    0x2006, 0x2007, 0x2008, 0x2009, 0x200A, 0x2028, 0x2029, 0x202F, 0x205F, 0x3000]

theorem toNat_mem_blankNumbers {c : Char} (h : Text.isBlank c) : c.toNat ∈ blankNumbers := by
  simp only [Text.isBlank, Bool.or_eq_true, Bool.and_eq_true, decide_eq_true_eq, beq_iff_eq] at h
  simp only [blankNumbers, List.mem_cons, List.not_mem_nil, or_false]
  omega

theorem isStrong_eq_false_of_isSeparator {c : Char} (h : isSeparator c) : isStrong c = false := by
  rcases Bool.or_eq_true_iff.1 h with hyphen | blank
  · rw [beq_iff_eq.1 hyphen]
    decide +kernel
  · have hnumber : ∀ n ∈ blankNumbers, isStrong (.ofNat n) = false := by decide +kernel
    rw [← Char.ofNat_toNat c]
    exact hnumber _ (toNat_mem_blankNumbers blank)

/-! ## Spaces in front of runs -/

/-- Puts a space in front of every run of strong characters. `within` tells whether the text in
front ends in such a run. -/
def spaceRunsFrom (within : Bool) : List Char → List Char
  | [] => []
  | c :: rest =>
    if isStrong c && !within then ' ' :: c :: spaceRunsFrom (isStrong c) rest
    else c :: spaceRunsFrom (isStrong c) rest

/-- A run goes on to its end. -/
theorem takeWhile_append_spaceRunsFrom (cs : List Char) :
    cs.takeWhile isStrong ++ spaceRunsFrom false (cs.dropWhile isStrong) =
      spaceRunsFrom true cs := by
  induction cs with
  | nil => rfl
  | cons c rest ih =>
    by_cases hc : isStrong c
    · rw [List.takeWhile_cons_of_pos hc, List.dropWhile_cons_of_pos hc, List.cons_append, ih]
      simp [spaceRunsFrom, hc]
    · rw [List.takeWhile_cons_of_neg hc, List.dropWhile_cons_of_neg hc]
      simp [spaceRunsFrom, hc]

theorem spaceRuns_eq (cs : List Char) : spaceRuns cs = spaceRunsFrom false cs := by
  induction cs using spaceRuns.induct with
  | case1 => rw [spaceRuns, spaceRunsFrom]
  | case2 c rest hc ih =>
    rw [spaceRuns, if_pos hc, ih, takeWhile_append_spaceRunsFrom]
    simp [spaceRunsFrom, hc]
  | case3 c rest hc ih =>
    rw [spaceRuns, if_neg hc, ih]
    simp [spaceRunsFrom, hc]

/-- No space gets between a character and a small letter behind it. -/
theorem head?_spaceRunsFrom (within : Bool) (cs : List Char) :
    (spaceRunsFrom within cs).head?.any isSmall = cs.head?.any isSmall := by
  cases cs with
  | nil => rfl
  | cons c rest =>
    rw [spaceRunsFrom]
    split
    · rename_i hc
      cases hsmall : isSmall c with
      | false =>
        simp only [List.head?_cons, Option.any_some, hsmall]
        decide
      | true =>
        rw [isStrong_eq_false_of_isSmall hsmall, Bool.false_and] at hc
        cases hc
    · rfl

/-! ## Spaces in front of words -/

theorem takeWhile_append_spaceWords (cs : List Char) :
    cs.takeWhile isSmall ++ spaceWords (cs.dropWhile isSmall) = spaceWords cs := by
  induction cs with
  | nil => rfl
  | cons c rest ih =>
    by_cases hc : isSmall c
    · rw [List.takeWhile_cons_of_pos hc, List.dropWhile_cons_of_pos hc, List.cons_append, ih,
        spaceWords]
      simp [isStrong_eq_false_of_isSmall hc]
    · rw [List.takeWhile_cons_of_neg hc, List.dropWhile_cons_of_neg hc, List.nil_append]

theorem spaceWords_cons (c : Char) (rest : List Char) :
    spaceWords (c :: rest) =
      if isStrong c && rest.head?.any isSmall then ' ' :: c :: spaceWords rest
      else c :: spaceWords rest := by
  have hsmall : rest.takeWhile isSmall ≠ [] ↔ rest.head?.any isSmall := by
    cases rest with
    | nil => simp
    | cons d rest => by_cases hd : isSmall d <;> simp [hd]
  rw [spaceWords, takeWhile_append_spaceWords]
  simp only [hsmall, Bool.decide_eq_true]

/-! ## Both passes together -/

/-- Whether two lists of pieces give the same words, also after more has been put in front of their
first pieces: these have to be the same even if they are empty. -/
def SameWords (pieces pieces' : List (List Char)) : Prop :=
  pieces.head? = pieces'.head? ∧ pieces.tail.filter (· ≠ []) = pieces'.tail.filter (· ≠ [])

namespace SameWords

variable {pieces pieces' : List (List Char)}

theorem filter_eq (h : SameWords pieces pieces') :
    pieces.filter (· ≠ []) = pieces'.filter (· ≠ []) := by
  obtain ⟨hhead, htail⟩ := h
  cases pieces <;> cases pieces' <;> simp_all [List.filter_cons]

theorem cut (h : SameWords pieces pieces') : SameWords ([] :: pieces) ([] :: pieces') :=
  ⟨rfl, h.filter_eq⟩

/-- A piece more does not matter if it is empty. -/
theorem cut_cut (h : SameWords pieces pieces') : SameWords ([] :: [] :: pieces) ([] :: pieces') :=
  ⟨rfl, h.filter_eq⟩

theorem push (c : Char) (h : SameWords pieces pieces') :
    SameWords (pieces.modifyHead (c :: ·)) (pieces'.modifyHead (c :: ·)) := by
  obtain ⟨hhead, htail⟩ := h
  cases pieces <;> cases pieces' <;> simp_all [SameWords]

end SameWords

/-- A character, or a space for a hyphen. -/
def openHyphen (c : Char) : Char := if c = '-' then ' ' else c

theorem isBlank_openHyphen (c : Char) : Text.isBlank (openHyphen c) = isSeparator c := by
  by_cases hc : c = '-'
  · rw [hc]
    decide
  · simp [openHyphen, isSeparator, hc]

theorem openHyphen_of_not_isSeparator {c : Char} (h : isSeparator c = false) :
    openHyphen c = c := by
  have hc : c ≠ '-' := by
    rintro rfl
    cases h
  exact if_neg hc

/-- What does not tell hyphens from spaces does not see the difference. -/
theorem apply_openHyphen {p : Char → Bool} (hp : p ' ' = p '-') (c : Char) :
    p (openHyphen c) = p c := by
  by_cases hc : c = '-'
  · rw [hc]
    exact hp
  · rw [openHyphen, if_neg hc]

theorem isStrong_openHyphen (c : Char) : isStrong (openHyphen c) = isStrong c :=
  apply_openHyphen (by decide +kernel) c

/-- The text of a name with spaces in front of runs and of words. `within` tells whether the text in
front ends in a strong character. -/
def spaced (within : Bool) (cs : List Char) : List Char :=
  spaceWords (spaceRunsFrom within (cs.map openHyphen))

theorem spaced_nil (within : Bool) : spaced within [] = [] := by
  rw [spaced, List.map_nil, spaceRunsFrom, spaceWords]

/-- A strong character gets a space if no strong one is in front of it, and a space if a small
letter follows it. -/
theorem spaced_cons (within : Bool) (c : Char) (rest : List Char) :
    spaced within (c :: rest) =
      (if isStrong c && !within then [' '] else []) ++
        (if isStrong c && rest.head?.any isSmall then [' '] else []) ++
          openHyphen c :: spaced (isStrong c) rest := by
  have hnext (within : Bool) : (spaceRunsFrom within (rest.map openHyphen)).head?.any isSmall =
      rest.head?.any isSmall := by
    rw [head?_spaceRunsFrom, List.head?_map]
    cases rest.head? with
    | none => rfl
    | some d => exact apply_openHyphen (p := isSmall) (by decide) d
  have hspace : isStrong ' ' = false := by decide +kernel
  rw [spaced, List.map_cons, spaceRunsFrom, isStrong_openHyphen]
  by_cases hfirst : isStrong c && !within <;>
    by_cases hsmall : isStrong c && rest.head?.any isSmall <;>
      simp [hfirst, hsmall, spaceWords_cons, hspace, isStrong_openHyphen, hnext, spaced]

/-- **The two passes cut a name by the local rule.** -/
theorem sameWords_piecesOf (before : Option Char) (cs : List Char) :
    SameWords ((spaced (before.any isStrong) cs).splitOnP Text.isBlank)
      (piecesOf isStrong before cs) := by
  -- of the text in front both sides only see whether it ends in a strong character
  induction cs generalizing before with
  | nil =>
    rw [spaced_nil]
    exact ⟨rfl, rfl⟩
  | cons c rest ih =>
    have hrest : SameWords ((spaced (isStrong c) rest).splitOnP Text.isBlank)
        (piecesOf isStrong (some c) rest) := ih (some c)
    have hblank : Text.isBlank ' ' = true := by decide
    rw [spaced_cons, piecesOf]
    cases hsep : isSeparator c with
    | true =>
      have hc : isStrong c = false := isStrong_eq_false_of_isSeparator hsep
      simp only [hc, Bool.false_and, Bool.false_eq_true, if_false, List.nil_append,
        List.splitOnP_cons_eq_if_modifyHead, isBlank_openHyphen, hsep, if_true]
      rw [hc] at hrest
      exact hrest.cut
    | false =>
      have hc : openHyphen c = c := openHyphen_of_not_isSeparator hsep
      have hkeep : (c :: spaced (isStrong c) rest).splitOnP Text.isBlank =
          ((spaced (isStrong c) rest).splitOnP Text.isBlank).modifyHead (c :: ·) := by
        rw [List.splitOnP_cons_eq_if_modifyHead, ← hc, isBlank_openHyphen, hsep]
        rfl
      have hspace (cs : List Char) :
          (' ' :: cs).splitOnP Text.isBlank = [] :: cs.splitOnP Text.isBlank := by
        rw [List.splitOnP_cons_eq_if_modifyHead, hblank]
        rfl
      have hpush := hrest.push c
      rw [← hkeep] at hpush
      rw [hc, startsWord, if_neg Bool.false_ne_true]
      cases hstrong : isStrong c with
      | false => simpa [hstrong] using hpush
      | true =>
        rw [hstrong] at hpush
        -- a word that starts a run is cut off twice if a small letter follows
        cases hbefore : before.any isStrong <;> cases hafter : rest.head?.any isSmall
        · simpa [hspace] using hpush.cut
        · simpa [hspace] using hpush.cut_cut
        · simpa using hpush
        · simpa [hspace] using hpush.cut

/-- **A name in snake case** is its words in lower case with underscores between them. -/
theorem snakeCase_eq (name : String) : snakeCase name =
    String.ofList (Text.lowerCase (['_'].intercalate (wordsOf isStrong name.toList))) := by
  have hwords : Text.words (spaceWords (spaceRuns (name.toList.map openHyphen))) =
      wordsOf isStrong name.toList := by
    rw [spaceRuns_eq]
    exact (sameWords_piecesOf none name.toList).filter_eq
  rw [← hwords]
  rfl

/-! ## Reserved names -/

/-- Reserved names are avoided if none of them ends in an underscore. -/
theorem avoid_not_mem {reserved : List String}
    (h : ∀ word ∈ reserved, word.toList.getLast? ≠ some '_') (name : String) :
    avoid reserved name ∉ reserved := by
  rw [avoid]
  split
  · intro hmem
    exact h _ hmem (by simp)
  · rename_i hname
    simpa using hname

/-- **No parameter has the name of a keyword.** -/
theorem parameterIdentifier_not_mem (name : String) :
    parameterIdentifier name ∉ reservedIdentifiers :=
  avoid_not_mem (by decide +kernel) _

/-! ## Names of ASCII characters -/

/-- Capital letters and digits of ASCII. -/
def isCapitalOrDigit (c : Char) : Bool := c.isUpper || c.isDigit

theorem isStrong_of_ascii {c : Char} (h : c.toNat < 128) : isStrong c = isCapitalOrDigit c :=
  Utf8.forall_of_toNat_lt (p := fun c => isStrong c = isCapitalOrDigit c) (by decide +kernel) h

/-- **A name of ASCII characters in snake case** consists of the words into which the local rule
cuts it. Nothing is dropped but hyphens and blanks. As a parameter it is no keyword. -/
theorem snakeCase_ascii {name : String} (h : ∀ c ∈ name.toList, c.toNat < 128) :
    snakeCase name = String.ofList
      ((['_'].intercalate (wordsOf isCapitalOrDigit name.toList)).map Char.toLower) ∧
    (wordsOf isCapitalOrDigit name.toList).flatten = name.toList.filter (!isSeparator ·) ∧
    parameterIdentifier name ∉ reservedIdentifiers := by
  have hwords : wordsOf isStrong name.toList = wordsOf isCapitalOrDigit name.toList := by
    rw [wordsOf, wordsOf, piecesOf_congr (fun c hc => isStrong_of_ascii (h c hc)) rfl]
  have hascii : ∀ c ∈ ['_'].intercalate (wordsOf isCapitalOrDigit name.toList), c.toNat < 128 := by
    refine forall_mem_intercalate (by simp) fun c hc => ?_
    rw [flatten_wordsOf] at hc
    exact h c (List.mem_filter.1 hc).1
  refine ⟨?_, flatten_wordsOf name.toList, parameterIdentifier_not_mem name⟩
  rw [snakeCase_eq, hwords, Text.lowerCase_of_ascii hascii]

theorem snakeCase_ascii_getUserID : (∀ c ∈ "GetUserID-2nd from".toList, c.toNat < 128) ∧
    snakeCase "GetUserID-2nd from" = String.ofList ((['_'].intercalate
      (wordsOf isCapitalOrDigit "GetUserID-2nd from".toList)).map Char.toLower) ∧
    wordsOf isCapitalOrDigit "GetUserID-2nd from".toList =
      ["Get".toList, "User".toList, "ID".toList, "2nd".toList, "from".toList] := by
  have hascii : ∀ c ∈ "GetUserID-2nd from".toList, c.toNat < 128 := by simp
  exact ⟨hascii, (snakeCase_ascii hascii).1, by decide +kernel⟩

end Naming

end TrafficSchema
