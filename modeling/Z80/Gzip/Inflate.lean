/-
  Z80.Gzip.Inflate

  The DEFLATE format: blocks of stored bytes, and blocks of literal bytes and
  references to bytes written before, in a fixed code or in one that the block
  describes.
-/

import Z80.Gzip.Huffman

namespace Z80.Gzip

/-! ## Tables of the format -/

/-- The least length that a length symbol stands for and the number of extra bits
    that add to it. -/
def lengthBases : Array (Nat × Nat) :=
  #[(3, 0), (4, 0), (5, 0), (6, 0), (7, 0), (8, 0), (9, 0), (10, 0), (11, 1), (13, 1), (15, 1),
    (17, 1), (19, 2), (23, 2), (27, 2), (31, 2), (35, 3), (43, 3), (51, 3), (59, 3), (67, 4),
    (83, 4), (99, 4), (115, 4), (131, 5), (163, 5), (195, 5), (227, 5), (258, 0)]

/-- The same for a distance symbol. -/
def distanceBases : Array (Nat × Nat) :=
  #[(1, 0), (2, 0), (3, 0), (4, 0), (5, 1), (7, 1), (9, 2), (13, 2), (17, 3), (25, 3), (33, 4),
    (49, 4), (65, 5), (97, 5), (129, 6), (193, 6), (257, 7), (385, 7), (513, 8), (769, 8),
    (1025, 9), (1537, 9), (2049, 10), (3073, 10), (4097, 11), (6145, 11), (8193, 12), (12289, 12),
    (16385, 13), (24577, 13)]

/-- The order in which a block gives the word lengths of its code for lengths. -/
def codeLengthOrder : List Nat :=
  [16, 17, 18, 0, 8, 7, 9, 6, 10, 5, 11, 4, 12, 3, 13, 2, 14, 1, 15]

/-- The word lengths of the fixed code for literals and lengths. -/
def fixedLiteralLengths : List Nat :=
  List.replicate 144 8 ++ List.replicate 112 9 ++ List.replicate 24 7 ++ List.replicate 8 8

/-- The word lengths of the fixed code for distances. -/
def fixedDistanceLengths : List Nat :=
  List.replicate 32 5

/-! ## References -/

/-- The value of a length or distance symbol with its extra bits. -/
def extended? (bases : Array (Nat × Nat)) (symbol : Nat) (s : Bits) : Option (Nat × Bits) := do
  let (base, extra) ← bases[symbol]?
  let (v, s) ← s.take? extra
  some (base + v, s)

/-- The last byte but `distance` written again, `n` times over. -/
def copy? (distance : Nat) : Nat → ByteArray → Option ByteArray
  | 0, out => some out
  | n + 1, out =>
    if distance = 0 ∨ out.size < distance then none
    else do
      let b ← out[out.size - distance]?
      copy? distance n (out.push b)

/-! ## Blocks -/

/-- The symbols of a block up to its end. -/
def symbols? (literals distances : Huffman) : Nat → Bits → ByteArray → Option (Bits × ByteArray)
  | 0, _, _ => none
  | fuel + 1, s, out => do
    let (symbol, s) ← literals.decode? s
    if symbol < 256 then symbols? literals distances fuel s (out.push symbol.toUInt8)
    else if symbol = 256 then some (s, out)
    else do
      let (length, s) ← extended? lengthBases (symbol - 257) s
      let (distanceSymbol, s) ← distances.decode? s
      let (distance, s) ← extended? distanceBases distanceSymbol s
      let out ← copy? distance length out
      symbols? literals distances fuel s out

/-- `n` word lengths in the code `h`, in which some symbols repeat a length. -/
def lengths? (h : Huffman) (n : Nat) : Nat → Bits → List Nat → Option (List Nat × Bits)
  | 0, _, _ => none
  | fuel + 1, s, found =>
    if found.length = n then some (found.reverse, s)
    else if n < found.length then none
    else do
      let (symbol, s) ← h.decode? s
      if symbol < 16 then lengths? h n fuel s (symbol :: found)
      else if symbol = 16 then do
        let previous ← found.head?
        let (k, s) ← s.take? 2
        lengths? h n fuel s (List.replicate (3 + k) previous ++ found)
      else if symbol = 17 then do
        let (k, s) ← s.take? 3
        lengths? h n fuel s (List.replicate (3 + k) 0 ++ found)
      else do
        let (k, s) ← s.take? 7
        lengths? h n fuel s (List.replicate (11 + k) 0 ++ found)

/-- The `n` three-bit word lengths of the code for lengths. -/
def shortLengths? : Nat → Bits → Option (List Nat × Bits)
  | 0, s => some ([], s)
  | n + 1, s => do
    let (v, s) ← s.take? 3
    let (vs, s) ← shortLengths? n s
    some (v :: vs, s)

/-- The codes that a block describes. -/
def describedCodes? (s : Bits) : Option (Huffman × Huffman × Bits) := do
  let (literalCount, s) ← s.take? 5
  let (distanceCount, s) ← s.take? 5
  let (shortCount, s) ← s.take? 4
  let (short, s) ← shortLengths? (shortCount + 4) s
  let lengths := (List.range 19).map fun symbol =>
    ((codeLengthOrder.zip short).lookup symbol).getD 0
  let code ← Huffman.ofLengths? lengths
  let total := literalCount + 257 + (distanceCount + 1)
  let (all, s) ← lengths? code total (total + 1) s []
  let literals ← Huffman.ofLengths? (all.take (literalCount + 257))
  let distances ← Huffman.ofLengths? (all.drop (literalCount + 257))
  some (literals, distances, s)

/-- The bytes of a stored block. -/
def stored? (bs : List Byte) (out : ByteArray) : Option (Bits × ByteArray) :=
  match bs with
  | a :: b :: c :: d :: rest =>
    let n := a.toNat + 256 * b.toNat
    if c.toNat + 256 * d.toNat = 65535 - n ∧ n ≤ rest.length then
      some (.ofBytes (rest.drop n), (rest.take n).foldl ByteArray.push out)
    else none
  | _ => none

/-- The blocks up to the last one: the bytes left behind it and the bytes it
    makes. -/
def blocks? : Nat → Bits → ByteArray → Option (List Byte × ByteArray)
  | 0, _, _ => none
  | fuel + 1, s, out => do
    let (last, s) ← s.next?
    let (kind, s) ← s.take? 2
    let (s, out) ← match kind with
      | 0 => stored? s.align out
      | 1 => do
        let literals ← Huffman.ofLengths? fixedLiteralLengths
        let distances ← Huffman.ofLengths? fixedDistanceLengths
        symbols? literals distances (s.size + 1) s out
      | 2 => do
        let (literals, distances, s) ← describedCodes? s
        symbols? literals distances (s.size + 1) s out
      | _ => none
    if last then some (s.align, out) else blocks? fuel s out

/-- The bytes that a DEFLATE stream stands for, and what follows the stream. -/
def inflate? (bs : List Byte) : Option (List Byte × ByteArray) :=
  blocks? (8 * bs.length + 1) (.ofBytes bs) .empty

end Z80.Gzip
