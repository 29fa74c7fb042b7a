/-!
# The DEFLATE and zlib formats

`Deflate.inflate?` decompresses a DEFLATE stream, which is a sequence of bits in blocks. A block
is stored as it is, or it is a sequence of literal bytes and copies of what was written before
(`Item`), in a prefix code (`Code`) that is either fixed or described at the start of the block.

A prefix code is given by the lengths of its codewords. It has to be complete, unless there is
at most one codeword. A copy may reach back before the first byte, where there are zeros.

A zlib stream is a header of two bytes, a DEFLATE stream and a checksum of what it decompresses
to (`Zlib.decode?`). What follows the checksum is ignored.
-/

namespace TrafficSchema

namespace Deflate

/-- A sequence of bits in the order in which they are read. -/
abbrev Bits := List Bool

/-- The bits of a byte, the least significant first. -/
def bitsOfByte (b : UInt8) : Bits := (List.range 8).map b.toNat.testBit

/-- The bits of a sequence of bytes. -/
def bitsOfBytes (bytes : List UInt8) : Bits := bytes.flatMap bitsOfByte

/-- Reads a number of `n` bits, the least significant first. -/
def number? : (n : Nat) → Bits → Option (Nat × Bits)
  | 0, bits => some (0, bits)
  | _ + 1, [] => none
  | n + 1, b :: bits => (number? n bits).map fun (v, rest) => (2 * v + b.toNat, rest)

/-- Drops the bits up to the next byte of a stream that ends with a whole byte. -/
def align (bits : Bits) : Bits := bits.drop (bits.length % 8)

/-! ## Prefix codes -/

/-- The greatest length of a codeword. -/
def maxLength : Nat := 15

/-- A canonical prefix code: how many codewords there are of each length from one on, and the
symbols in the order of their codewords. -/
structure Code where
  counts : List Nat
  symbols : Array Nat

namespace Code

/-- The code in which the symbol `i` has a codeword of the `i`th length, or none if that is
zero. -/
def ofLengths? (lengths : List Nat) : Option Code :=
  let levels := (List.range maxLength).map (· + 1)
  let symbols := levels.flatMap fun n => (List.range lengths.length).filter (lengths[·]? = some n)
  let space := lengths.foldl (fun space n =>
    if n = 0 then space else space + Nat.pow 2 (maxLength - n)) 0
  if space = Nat.pow 2 maxLength ∨ symbols.length ≤ 1 then
    some ⟨levels.map lengths.count, symbols.toArray⟩
  else none

/-- Reads a codeword bit by bit. Among the codewords of the length reached so far, `offset` is
the rank of the bits read, and `skipped` counts the shorter codewords. -/
def decodeFrom? (symbols : Array Nat) (offset skipped : Nat) :
    List Nat → Bits → Option (Nat × Bits)
  | count :: counts, b :: bits =>
    let offset := 2 * offset + b.toNat
    if offset < count then symbols[skipped + offset]?.map (·, bits)
    else decodeFrom? symbols (offset - count) (skipped + count) counts bits
  | _, _ => none

/-- Reads the codeword of a symbol. -/
def decode? (code : Code) (bits : Bits) : Option (Nat × Bits) :=
  decodeFrom? code.symbols 0 0 code.counts bits

theorem length_decodeFrom? {symbols : Array Nat} {offset skipped symbol : Nat} {counts : List Nat}
    {bits rest : Bits} (h : decodeFrom? symbols offset skipped counts bits = some (symbol, rest)) :
    rest.length < bits.length := by
  induction bits generalizing offset skipped counts with
  | nil => cases counts <;> simp [decodeFrom?] at h
  | cons b bits ih =>
    cases counts with
    | nil => simp [decodeFrom?] at h
    | cons count counts =>
      simp only [decodeFrom?] at h
      split at h
      · simp only [Option.map_eq_some_iff, Prod.mk.injEq] at h
        obtain ⟨_, _, _, rfl⟩ := h
        simp
      · have := ih h
        simp only [List.length_cons]
        omega

end Code

/-! ## Compressed blocks -/

/-- What a compressed block is made of. -/
inductive Item
  | literal (b : UInt8)
  /-- Repeat so many bytes from so far back. -/
  | copy (length distance : Nat)
  | endOfBlock

/-- For each length symbol from 257 on, the least length and the number of bits that are added
to it. -/
def lengthTable : List (Nat × Nat) :=
  [(3, 0), (4, 0), (5, 0), (6, 0), (7, 0), (8, 0), (9, 0), (10, 0), (11, 1), (13, 1), (15, 1),
    (17, 1), (19, 2), (23, 2), (27, 2), (31, 2), (35, 3), (43, 3), (51, 3), (59, 3), (67, 4),
    (83, 4), (99, 4), (115, 4), (131, 5), (163, 5), (195, 5), (227, 5), (258, 0)]

/-- For each distance symbol, the least distance and the number of bits that are added to it. -/
def distanceTable : List (Nat × Nat) :=
  [(1, 0), (2, 0), (3, 0), (4, 0), (5, 1), (7, 1), (9, 2), (13, 2), (17, 3), (25, 3), (33, 4),
    (49, 4), (65, 5), (97, 5), (129, 6), (193, 6), (257, 7), (385, 7), (513, 8), (769, 8),
    (1025, 9), (1537, 9), (2049, 10), (3073, 10), (4097, 11), (6145, 11), (8193, 12),
    (12289, 12), (16385, 13), (24577, 13)]

/-- Reads the bits that are added to the entry of a table. -/
def extended? (table : List (Nat × Nat)) (index : Nat) (bits : Bits) : Option (Nat × Bits) := do
  let (base, width) ← table[index]?
  let (extra, bits) ← number? width bits
  return (base + extra, bits)

/-- Reads an item whose first symbol has been read. -/
def itemOf? (distances : Code) (symbol : Nat) (bits : Bits) : Option (Item × Bits) :=
  if symbol < 256 then some (.literal (.ofNat symbol), bits)
  else if symbol = 256 then some (.endOfBlock, bits)
  else do
    let (length, bits) ← extended? lengthTable (symbol - 257) bits
    let (symbol, bits) ← distances.decode? bits
    let (distance, bits) ← extended? distanceTable symbol bits
    return (.copy length distance, bits)

/-- Repeats bytes, one by one, so that a copy may repeat what it writes itself. -/
def copyBack (distance : Nat) : (length : Nat) → Array UInt8 → Array UInt8
  | 0, out => out
  | length + 1, out =>
    let byte := if distance ≤ out.size then out.getD (out.size - distance) 0 else 0
    copyBack distance length (out.push byte)

theorem length_number? {n v : Nat} {bits rest : Bits} (h : number? n bits = some (v, rest)) :
    rest.length ≤ bits.length := by
  induction n generalizing bits v with
  | zero => simp_all [number?]
  | succ n ih =>
    cases bits with
    | nil => simp [number?] at h
    | cons b bits =>
      simp only [number?, Option.map_eq_some_iff, Prod.exists, Prod.mk.injEq] at h
      obtain ⟨_, _, h, -, rfl⟩ := h
      have := ih h
      simp only [List.length_cons]
      omega

theorem length_extended? {table : List (Nat × Nat)} {index v : Nat} {bits rest : Bits}
    (h : extended? table index bits = some (v, rest)) : rest.length ≤ bits.length := by
  simp only [extended?, bind, Option.bind_eq_some_iff, Prod.exists, pure, Option.some.injEq,
    Prod.mk.injEq] at h
  obtain ⟨_, _, _, _, _, h, -, rfl⟩ := h
  exact length_number? h

theorem length_itemOf? {distances : Code} {symbol : Nat} {bits rest : Bits} {item : Item}
    (h : itemOf? distances symbol bits = some (item, rest)) : rest.length ≤ bits.length := by
  unfold itemOf? at h
  split at h
  · simp_all
  · split at h
    · simp_all
    · simp only [bind, Option.bind_eq_some_iff, Prod.exists, pure, Option.some.injEq,
        Prod.mk.injEq] at h
      obtain ⟨_, _, h₁, _, _, h₂, _, _, h₃, -, rfl⟩ := h
      have h₁ := length_extended? h₁
      have h₂ := Code.length_decodeFrom? h₂
      have h₃ := length_extended? h₃
      omega

/-- Reads the items of a compressed block up to its end. -/
def items? (literals distances : Code) (bits : Bits) (out : Array UInt8) :
    Option (Bits × Array UInt8) :=
  match h : literals.decode? bits with
  | none => none
  | some (symbol, bits₁) =>
    match h₁ : itemOf? distances symbol bits₁ with
    | none => none
    | some (item, bits₂) =>
      have := Nat.lt_of_le_of_lt (length_itemOf? h₁) (Code.length_decodeFrom? h)
      match item with
      | .literal b => items? literals distances bits₂ (out.push b)
      | .copy length distance => items? literals distances bits₂ (copyBack distance length out)
      | .endOfBlock => some (bits₂, out)
termination_by bits.length

/-! ## The codes of a block -/

/-- The fixed code of literals and lengths. -/
def fixedLiterals : List Nat :=
  List.replicate 144 8 ++ List.replicate 112 9 ++ List.replicate 24 7 ++ List.replicate 8 8

/-- The fixed code of distances. -/
def fixedDistances : List Nat := List.replicate 32 5

/-- The order in which the lengths of the code of lengths are given. -/
def lengthOrder : List Nat := [16, 17, 18, 0, 8, 7, 9, 6, 10, 5, 11, 4, 12, 3, 13, 2, 14, 1, 15]

/-- Reads `n` numbers of three bits. -/
def triples? : (n : Nat) → Bits → Option (List Nat × Bits)
  | 0, bits => some ([], bits)
  | n + 1, bits => do
    let (v, bits) ← number? 3 bits
    let (rest, bits) ← triples? n bits
    return (v :: rest, bits)

/-- Reads the lengths of codewords, `remaining` of them; those read before are in reverse order.
The symbols 16 to 18 repeat a length. -/
def lengths? (code : Code) (remaining : Nat) (before : List Nat) (bits : Bits) :
    Option (List Nat × Bits) :=
  if remaining = 0 then some (before.reverse, bits)
  else match code.decode? bits with
    | none => none
    | some (symbol, bits) =>
      if symbol < 16 then lengths? code (remaining - 1) (symbol :: before) bits
      else
        let repeated := if symbol = 16 then before.head? else some 0
        let (base, width) := if symbol = 16 then (3, 2) else if symbol = 17 then (3, 3) else (11, 7)
        match repeated, number? width bits with
        | some length, some (extra, bits) =>
          if 0 < base + extra ∧ base + extra ≤ remaining then
            lengths? code (remaining - (base + extra))
              (List.replicate (base + extra) length ++ before) bits
          else none
        | _, _ => none
termination_by remaining

/-- Reads the codes that a block describes at its start. -/
def codes? (bits : Bits) : Option (Code × Code × Bits) := do
  let (literals, bits) ← number? 5 bits
  let (distances, bits) ← number? 5 bits
  let (given, bits) ← number? 4 bits
  let literals := literals + 257
  let distances := distances + 1
  if literals > 286 ∨ distances > 30 then none
  let (given, bits) ← triples? (given + 4) bits
  let positions := lengthOrder.zip given
  let code ← Code.ofLengths? ((List.range 19).map fun i => (positions.lookup i).getD 0)
  let (lengths, bits) ← lengths? code (literals + distances) [] bits
  let literalCode ← Code.ofLengths? (lengths.take literals)
  let distanceCode ← Code.ofLengths? (lengths.drop literals)
  return (literalCode, distanceCode, bits)

/-! ## Streams -/

/-- Reads `n` bytes. -/
def bytes? : (n : Nat) → Bits → Array UInt8 → Option (Bits × Array UInt8)
  | 0, bits, out => some (bits, out)
  | n + 1, bits, out => do
    let (b, bits) ← number? 8 bits
    bytes? n bits (out.push (.ofNat b))

/-- Reads a block: whether it is the last one, what follows it, and all bytes so far. -/
def block? (bits : Bits) (out : Array UInt8) : Option (Bool × Bits × Array UInt8) := do
  let (last, bits) ← number? 1 bits
  let (kind, bits) ← number? 2 bits
  let (bits, out) ← match kind with
    | 0 => do
      let (length, bits) ← number? 16 (align bits)
      let (complement, bits) ← number? 16 bits
      if length + complement = 65535 then bytes? length bits out else none
    | 1 => do items? (← Code.ofLengths? fixedLiterals) (← Code.ofLengths? fixedDistances) bits out
    | 2 => do
      let (literals, distances, bits) ← codes? bits
      items? literals distances bits out
    | _ => none
  return (last = 1, bits, out)

/-- Reads blocks up to the last one. A block has at least three bits, so what follows it is
shorter. -/
def blocks? (bits : Bits) (out : Array UInt8) : Option (Bits × Array UInt8) :=
  match block? bits out with
  | none => none
  | some (last, rest, out) =>
    if last then some (rest, out)
    else if rest.length < bits.length then blocks? rest out
    else none
termination_by bits.length

/-- Decompresses a stream: its bytes, and the bits that follow it. -/
def inflate? (bits : Bits) : Option (List UInt8 × Bits) :=
  (blocks? bits #[]).map fun (rest, out) => (out.toList, rest)

end Deflate

/-! ## The zlib format -/

namespace Zlib

/-- Whether two bytes are a header: method 8 with a window of at most 32 KiB, no preset
dictionary, and check bits that make the whole a multiple of 31. -/
def isHeader (cmf flg : UInt8) : Bool :=
  (cmf.toNat * 256 + flg.toNat) % 31 == 0 && cmf.toNat % 16 == 8 && cmf.toNat / 16 ≤ 7 &&
    !flg.toNat.testBit 5

/-- The checksum: the sum of the bytes, and the sum of all these sums along the way. -/
def adler32 (bytes : List UInt8) : Nat :=
  let (a, b) := bytes.foldl (fun (a, b) byte =>
    let a := (a + byte.toNat) % 65521
    (a, (b + a) % 65521)) (1, 0)
  b * 65536 + a

/-- Reads `n` bytes as a number, the most significant first. -/
def bigEndian? : (n : Nat) → (value : Nat) → Deflate.Bits → Option Nat
  | 0, value, _ => some value
  | n + 1, value, bits => do
    let (b, bits) ← Deflate.number? 8 bits
    bigEndian? n (256 * value + b) bits

/-- What a stream decompresses to. -/
def decode? : List UInt8 → Option (List UInt8)
  | cmf :: flg :: rest => do
    if !isHeader cmf flg then none
    let (bytes, bits) ← Deflate.inflate? (Deflate.bitsOfBytes rest)
    let checksum ← bigEndian? 4 0 (Deflate.align bits)
    if checksum = adler32 bytes then some bytes else none
  | _ => none

end Zlib

end TrafficSchema
