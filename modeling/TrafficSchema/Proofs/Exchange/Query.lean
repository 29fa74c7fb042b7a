import TrafficSchema.Proofs.Exchange.Percent
import TrafficSchema.Proofs.Exchange.Target
import TrafficSchema.Proofs.Shape.Flattening

/-!
# Building and parsing queries

Whatever stands between two `&` is parsed by itself, and the results are merged
(`Query.parse_eq_foldl`). Hence a query that is put together from two has the parameters of both
(`Query.parse_append`).

What is built from keys and values has just these keys, and under each of them the tag that fits all
its values (`Query.parse_build`). The keys and values may be any texts, in any of their encodings.
-/

namespace TrafficSchema.Query

/-! ## Pieces -/

/-- What a query says that has no `&`. -/
def pieceTree (piece : List Char) : ShapeTree := if piece = [] then ∅ else observePair ∅ piece

theorem observePair_eq (t : ShapeTree) (pair : List Char) :
    observePair t pair = t.merge .widen (observePair ∅ pair) := by
  simp only [observePair, ShapeTree.observe_eq_sup, ShapeTree.empty_sup,
    ShapeTree.merge_widen_eq_sup]

/-- **The pieces of a query are parsed one by one**, and what they say is merged. -/
theorem parse_eq_foldl (query : String) :
    parse query = ((pieces '&' query.toList).map pieceTree).foldl (·.merge .widen ·) ∅ := by
  have hstep (t : ShapeTree) (piece : List Char) :
      (if piece ≠ [] then observePair t piece else t) = t.merge .widen (pieceTree piece) := by
    by_cases hpiece : piece = []
    · rw [pieceTree, if_neg (not_not.2 hpiece), if_pos hpiece]
      exact (ShapeTree.sup_empty t).symm
    · rw [pieceTree, if_pos hpiece, if_neg hpiece, observePair_eq]
  simp only [parse, List.foldl_filter, List.foldl_map, decide_eq_true_eq, hstep]

theorem pieces_append (c : Char) (before after : List Char) :
    pieces c (before ++ c :: after) = pieces c before ++ pieces c after :=
  List.splitOnP_append_cons before after (beq_self_eq_true c)

/-- **A query put together from two has the parameters of both.** -/
theorem parse_append (q r : String) :
    parse (q ++ "&" ++ r) = (parse q).merge .widen (parse r) := by
  have htext : (q ++ "&" ++ r).toList = q.toList ++ '&' :: r.toList := by
    simp
  have hassoc : Std.Associative (ShapeTree.merge .widen) := ⟨fun s t u => sup_assoc s t u⟩
  rw [parse_eq_foldl, htext, pieces_append, List.map_append, List.foldl_append, ← parse_eq_foldl,
    parse_eq_foldl r]
  calc List.foldl (·.merge .widen ·) (parse q) ((pieces '&' r.toList).map pieceTree)
      = List.foldl (·.merge .widen ·) ((parse q).merge .widen ∅)
          ((pieces '&' r.toList).map pieceTree) :=
        congrArg (List.foldl _ · _) (ShapeTree.sup_empty _).symm
    _ = _ := List.foldl_assoc

/-! ## Building -/

/-- A key and a value, each in one of its encodings. -/
structure EncodedPair where
  key : String
  value : String
  rawKey : List Char
  rawValue : List Char
  encodes_key : Percent.Encodes rawKey key.toList
  encodes_value : Percent.Encodes rawValue value.toList

namespace EncodedPair

/-- All texts can be a key and its value. -/
theorem exists_eq (key value : String) : ∃ p : EncodedPair, p.key = key ∧ p.value = value := by
  obtain ⟨rawKey, hkey⟩ := Percent.exists_encodes key.toList
  obtain ⟨rawValue, hvalue⟩ := Percent.exists_encodes value.toList
  exact ⟨⟨key, value, rawKey, rawValue, hkey, hvalue⟩, rfl, rfl⟩

def text (p : EncodedPair) : List Char := p.rawKey ++ '=' :: p.rawValue

theorem splitPair_text (p : EncodedPair) : splitPair p.text = (p.rawKey, some p.rawValue) := by
  have hcut : Target.cutAt '=' p.text = (p.rawKey, some p.rawValue) :=
    Target.cutAt_eq_iff.2 ⟨p.encodes_key.not_mem (by decide), rfl⟩
  rw [splitPair, hcut]

/-- A pair gives its key the tag of its value. -/
theorem observePair_text (p : EncodedPair) (t : ShapeTree) :
    observePair t p.text = t.observe p.key (.scalar (Tag.infer p.value)) := by
  have hkey : decode p.rawKey = p.key :=
    Percent.decode_of_encodes (by simpa using p.encodes_key)
  have hvalue : decode p.rawValue = p.value :=
    Percent.decode_of_encodes (by simpa using p.encodes_value)
  rw [observePair, p.splitPair_text]
  simp only [valueTag, hkey, hvalue]

theorem not_mem_text (p : EncodedPair) : '&' ∉ p.text := by
  have hkey : '&' ∉ p.rawKey := p.encodes_key.not_mem (by decide)
  have hvalue : '&' ∉ p.rawValue := p.encodes_value.not_mem (by decide)
  simp [text, hkey, hvalue]

end EncodedPair

/-- What stands between two `&`: a pair, or nothing. -/
def segment (p : Option EncodedPair) : List Char := (p.map EncodedPair.text).getD []

/-- A query of some pairs. Further `&` stand where the list has no pair. -/
def build (segments : List (Option EncodedPair)) : String :=
  String.ofList (['&'].intercalate (segments.map segment))

theorem filter_map_segment (segments : List (Option EncodedPair)) :
    (segments.map segment).filter (· ≠ []) = (segments.filterMap id).map EncodedPair.text := by
  induction segments with
  | nil => rfl
  | cons p segments ih =>
    cases p with
    | none => exact ih
    | some p =>
      have hne : p.text ≠ [] := by simp [EncodedPair.text]
      simpa [segment, hne] using ih

/-- The pieces of a built query that are not empty are the texts of its pairs. -/
theorem filter_pieces_build (segments : List (Option EncodedPair)) :
    (pieces '&' (build segments).toList).filter (· ≠ []) =
      (segments.filterMap id).map EncodedPair.text := by
  have hsegment : ∀ cs ∈ segments.map segment, '&' ∉ cs := by
    intro cs hcs
    obtain ⟨p, -, rfl⟩ := List.mem_map.1 hcs
    cases p with
    | none => exact List.not_mem_nil
    | some p => exact p.not_mem_text
  rw [build, String.toList_ofList]
  by_cases hempty : segments = []
  · rw [hempty]
    rfl
  · have hpieces : pieces '&' (['&'].intercalate (segments.map segment)) = segments.map segment :=
      List.splitOn_intercalate '&' hsegment (by simpa using hempty)
    rw [hpieces, filter_map_segment]

/-- A built query is parsed as the keys and the types of the values it was built from. -/
theorem parse_build_eq_ofScalars (segments : List (Option EncodedPair)) :
    parse (build segments) =
      .ofScalars ((segments.filterMap id).map fun p => (p.key, Tag.infer p.value)) := by
  simp only [parse, filter_pieces_build, ShapeTree.ofScalars, List.foldl_map,
    EncodedPair.observePair_text]

section Build

variable {segments : List (Option EncodedPair)} {key : String} {shape : Shape}

theorem mem_scalars_build_iff {x : Tag} :
    (key, x) ∈ (segments.filterMap id).map (fun p => (p.key, Tag.infer p.value)) ↔
      ∃ p, some p ∈ segments ∧ p.key = key ∧ x = Tag.infer p.value := by
  simp only [List.mem_map, List.mem_filterMap, id, exists_eq_right, Prod.mk.injEq,
    eq_comm (b := x)]

theorem contains_parse_build :
    (parse (build segments)).contains key ↔ ∃ p, some p ∈ segments ∧ p.key = key := by
  rw [parse_build_eq_ofScalars, ShapeTree.contains_ofScalars_iff]
  simp only [mem_scalars_build_iff]
  constructor
  · rintro ⟨_, p, hp, hkey, -⟩
    exact ⟨p, hp, hkey⟩
  · rintro ⟨p, hp, hkey⟩
    exact ⟨_, p, hp, hkey, rfl⟩

theorem isGreatest_parse_build (h : (parse (build segments)).get? key = some shape) :
    ∃ tag, shape = .scalar tag ∧
      IsGreatest {x | ∃ p, some p ∈ segments ∧ p.key = key ∧ x = Tag.infer p.value} tag := by
  rw [parse_build_eq_ofScalars, ShapeTree.get?_ofScalars_eq_some_iff] at h
  simpa only [mem_scalars_build_iff] using h

end Build

/-- **Parsing undoes building.** A query that is built from keys and values, in any encodings and
with any number of `&` more than needed, has just these keys, and each has the greatest of the tags
of its values. A query that is put together from two has the parameters of both, merged. -/
theorem parse_build :
    (∀ (segments : List (Option EncodedPair)) (key : String),
      ((parse (build segments)).contains key ↔ ∃ p, some p ∈ segments ∧ p.key = key) ∧
      ∀ shape, (parse (build segments)).get? key = some shape → ∃ tag, shape = .scalar tag ∧
        IsGreatest {x | ∃ p, some p ∈ segments ∧ p.key = key ∧ x = Tag.infer p.value} tag) ∧
    ∀ q r : String, parse (q ++ "&" ++ r) = (parse q).merge .widen (parse r) :=
  ⟨fun _ _ => ⟨contains_parse_build, fun _ => isGreatest_parse_build⟩, parse_append⟩

example : (parse "&a%3D=1&&%61=x%26y&a%3d=2.5").get? "a=" = some (.scalar .float) := by
  decide +kernel

end TrafficSchema.Query
