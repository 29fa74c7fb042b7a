import Mathlib.Data.Bool.AllAny
import TrafficSchema.Proofs.Exchange.Query
import TrafficSchema.Proofs.Exchange.Target
import TrafficSchema.Proofs.Scalar.Infer

/-!
# Flags

A flag is a key without a value. A query that is a single flag is the text of its key, and where the
text has a digit, the digit is taken for the start of a value (`Query.parse_eq_flag_iff`).

This is decided before the text is decoded. So a flag is lost if a digit occurs in its encoding, be
it in an escape only (`Query.parse_flag`), and few characters have escapes without digits.
-/

namespace TrafficSchema.Query

/-! ## Single pairs -/

/-- A query without `&` is a single pair, whose key has the tag of the value. -/
theorem parse_of_splitPair {pair key : List Char} {value : Option (List Char)} (hne : pair ≠ [])
    (hpair : '&' ∉ pair) (hsplit : splitPair pair = (key, value)) :
    parse (String.ofList pair) = .singleton (decode key) (.scalar (valueTag value)) := by
  have hpieces : pieces '&' pair = [pair] :=
    List.splitOnP_eq_singleton fun c hc => by
      rw [beq_eq_false_iff_ne]
      rintro rfl
      exact hpair hc
  rw [parse_eq_foldl, String.toList_ofList, hpieces, List.map_singleton, List.foldl_cons,
    List.foldl_nil, pieceTree, if_neg hne, observePair, hsplit]
  simp only [ShapeTree.observe_eq_sup, ShapeTree.merge_widen_eq_sup, ShapeTree.empty_sup]

/-- In a pair without `=` the first digit starts the value, unless it starts the pair. -/
theorem splitPair_of_not_mem {pair : List Char} (h : '=' ∉ pair) : splitPair pair =
    if pair.takeWhile (!Char.isDigit ·) = [] ∨ pair.dropWhile (!Char.isDigit ·) = [] then
      (pair, none)
    else (pair.takeWhile (!Char.isDigit ·), some (pair.dropWhile (!Char.isDigit ·))) := by
  have hcut : Target.cutAt '=' pair = (pair, none) := Target.cutAt_eq_iff.2 ⟨h, by simp⟩
  simp only [splitPair, hcut]

/-- The two ways in which no digit starts a value. -/
theorem not_cut_iff {pair : List Char} (h : pair ≠ []) :
    pair.takeWhile (!Char.isDigit ·) = [] ∨ pair.dropWhile (!Char.isDigit ·) = [] ↔
      (∃ c ∈ pair.head?, c.isDigit) ∨ ∀ c ∈ pair, ¬ c.isDigit := by
  refine or_congr ?_ (by simp [List.dropWhile_eq_nil_iff])
  cases pair with
  | nil => exact absurd rfl h
  | cons c cs => simp [List.takeWhile_cons]

/-- A value that is not empty has a type. -/
theorem valueTag_ne_none {value : List Char} (h : value ≠ []) : valueTag (some value) ≠ .none := by
  rw [valueTag, ne_eq, Tag.infer_eq_none_iff]
  exact Percent.decode_ne_empty (by simpa using h)

/-! ## Flags -/

/-- **A pair without `=` is read as a flag** just if its text starts with a digit, or has none. -/
theorem parse_eq_flag_iff {raw : List Char} {key : String} (hraw : Percent.Encodes raw key.toList)
    (hkey : key ≠ "") :
    parse (String.ofList raw) = .singleton key (.scalar .none) ↔
      (∃ c ∈ raw.head?, c.isDigit) ∨ ∀ c ∈ raw, ¬ c.isDigit := by
  have hdecode : decode raw = key := Percent.decode_of_encodes (by simpa using hraw)
  have hne : raw ≠ [] := by
    rintro rfl
    have hempty : decode [] = "" := by decide +kernel
    exact hkey (hdecode.symm.trans hempty)
  have hpair : '&' ∉ raw := hraw.not_mem (by decide)
  have hsplit := splitPair_of_not_mem (hraw.not_mem (c := '=') (by decide))
  rw [← not_cut_iff hne]
  split at hsplit
  · rename_i hflag
    rw [parse_of_splitPair hne hpair hsplit, hdecode]
    exact iff_of_true rfl hflag
  · rename_i hvalue
    rw [parse_of_splitPair hne hpair hsplit]
    refine iff_of_false (fun heq => ?_) hvalue
    -- whatever key is found, its value has a type
    have hget := congrArg (·.get? key) heq
    simp only [ShapeTree.singleton, ShapeTree.get?_insert, if_pos, ShapeTree.get?_empty,
      Option.ite_none_right_eq_some, Option.some.injEq, Shape.scalar.injEq] at hget
    exact valueTag_ne_none (not_or.1 hvalue).2 hget.2

/-- A key without digits is read as a flag just if its encoding has no digit either. -/
theorem parse_eq_flag_iff_of_not_isDigit {raw : List Char} {key : String}
    (hraw : Percent.Encodes raw key.toList) (hkey : key ≠ "")
    (hdigit : ∀ c ∈ key.toList, ¬ c.isDigit) :
    parse (String.ofList raw) = .singleton key (.scalar .none) ↔ ∀ c ∈ raw, ¬ c.isDigit := by
  rw [parse_eq_flag_iff hraw hkey]
  refine or_iff_right ?_
  rintro ⟨c, hc, hd⟩
  exact hraw.not_isDigit_head? hdigit c hc hd

/-- **Which flags keep their names.** The key of a query that is a single pair without `=`, and has
no digits, is kept without a type just if its encoding has no digit. So an encoder keeps it just if
all bytes that it escapes have hexadecimal digits that are letters. -/
theorem parse_flag {key : String} (hkey : key ≠ "") (hdigit : ∀ c ∈ key.toList, ¬ c.isDigit) :
    (∀ raw, Percent.Encodes raw key.toList →
      (parse (String.ofList raw) = .singleton key (.scalar .none) ↔ ∀ c ∈ raw, ¬ c.isDigit)) ∧
    ∀ leave : Char → Bool, (∀ c ∈ Percent.reserved, leave c = false) →
      (parse (String.ofList (Percent.encode leave key.toList)) = .singleton key (.scalar .none) ↔
        ∀ c ∈ key.toList, leave c = false →
          ∀ b ∈ String.utf8EncodeChar c, Percent.IsLettered b) := by
  refine ⟨fun raw hraw => parse_eq_flag_iff_of_not_isDigit hraw hkey hdigit,
    fun leave hleave => ?_⟩
  rw [parse_eq_flag_iff_of_not_isDigit (Percent.encodes_encode hleave _) hkey hdigit,
    Percent.forall_encode_not_isDigit_iff]
  refine forall₂_congr fun c hc => ?_
  by_cases hkeep : leave c
  · simpa [hkeep] using hdigit c hc
  · simp [hkeep]

/-- The letter `Ϫ` has the bytes `CF AA`. -/
theorem parse_flag_letteredKey :
    ("Ϫ-key" ≠ "" ∧ (∀ c ∈ "Ϫ-key".toList, ¬ c.isDigit) ∧
      Percent.Encodes "%CF%AA-key".toList "Ϫ-key".toList) ∧
    parse (String.ofList "%CF%AA-key".toList) = .singleton "Ϫ-key" (.scalar .none) := by
  have hkey : "Ϫ-key" ≠ "" := by decide
  have hdigit : ∀ c ∈ "Ϫ-key".toList, ¬ c.isDigit := List.all_iff_forall_prop.1 (by decide)
  have hleave : ∀ c ∈ Percent.reserved, Percent.isUnreserved c = false :=
    List.all_iff_forall_prop.1 (by decide)
  have hencode : Percent.encode Percent.isUnreserved "Ϫ-key".toList = "%CF%AA-key".toList := by
    decide +kernel
  have hencodes : Percent.Encodes "%CF%AA-key".toList "Ϫ-key".toList :=
    hencode ▸ Percent.encodes_encode hleave "Ϫ-key".toList
  have hraw : ∀ c ∈ "%CF%AA-key".toList, ¬ c.isDigit := List.all_iff_forall_prop.1 (by decide)
  exact ⟨⟨hkey, hdigit, hencodes⟩, ((parse_flag hkey hdigit).1 _ hencodes).2 hraw⟩

/-- The letter `ö` has the bytes `C3 B6`, so the value starts within its escape. -/
theorem not_parse_flag_umlaut :
    ¬ ∀ key : String, key ≠ "" → (∀ c ∈ key.toList, ¬ c.isDigit) →
      parse (String.ofList (Percent.encode Percent.isUnreserved key.toList)) =
        .singleton key (.scalar .none) := by
  intro h
  have hflag := h "größe" (by decide) (List.all_iff_forall_prop.1 (by decide))
  have hget : (parse (String.ofList (Percent.encode Percent.isUnreserved "größe".toList))).get?
      "größe" = none := by
    decide +kernel
  rw [hflag] at hget
  simp [ShapeTree.singleton] at hget

example : parse "gr%C3%B6%C3%9Fe" = .singleton "gr%C" (.scalar .str) := by
  decide +kernel

end TrafficSchema.Query
