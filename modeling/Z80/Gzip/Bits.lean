/-
  Z80.Gzip.Bits

  Reading a byte sequence bit by bit, the least significant bit of each byte
  first.
-/

import Z80.Word

namespace Z80.Gzip

/-- What is left of a byte sequence, with the number of bits of the first byte
    that are used up. -/
structure Bits where
  rest : List Byte
  used : Nat

namespace Bits

/-- The bits of a byte sequence. -/
def ofBytes (bs : List Byte) : Bits :=
  ⟨bs, 0⟩

/-- An upper bound of the number of bits left. -/
def size (s : Bits) : Nat :=
  8 * s.rest.length

/-- The next bit. -/
def next? (s : Bits) : Option (Bool × Bits) :=
  match s.rest with
  | [] => none
  | b :: bs => some (b.bit s.used, if s.used = 7 then ⟨bs, 0⟩ else ⟨b :: bs, s.used + 1⟩)

/-- The number in the next `n` bits, the first of them the least significant. -/
def take? : Nat → Bits → Option (Nat × Bits)
  | 0, s => some (0, s)
  | n + 1, s => do
    let (b, s) ← s.next?
    let (v, s) ← take? n s
    some (b.toNat + 2 * v, s)

/-- The bytes left after the byte in which a bit has been used. -/
def align (s : Bits) : List Byte :=
  if s.used = 0 then s.rest else s.rest.drop 1

end Bits

end Z80.Gzip
