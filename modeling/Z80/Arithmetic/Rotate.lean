/-
  Z80.Arithmetic.Rotate

  Rotations and shifts of a byte through one bit, each with the bit that leaves
  it, and the digit rotations RLD and RRD between the accumulator and a byte.
-/

import Z80.Flags

namespace Z80

/-- Rotations and shifts.  Field 6 of the opcode has none. -/
inductive RotOp where
  /-- Rotate left; the bit that leaves enters at the other end. -/
  | rlc
  /-- Rotate right; the bit that leaves enters at the other end. -/
  | rrc
  /-- Rotate left through the carry. -/
  | rl
  /-- Rotate right through the carry. -/
  | rr
  /-- Shift left; a zero enters. -/
  | sla
  /-- Shift right; the sign stays. -/
  | sra
  /-- Shift right; a zero enters. -/
  | srl
  deriving DecidableEq, Repr

namespace RotOp

/-- The operation selected by a three-bit opcode field. -/
def ofField? (y : Byte) : Option RotOp :=
  match y &&& 7 with
  | 0 => some rlc
  | 1 => some rrc
  | 2 => some rl
  | 3 => some rr
  | 4 => some sla
  | 5 => some sra
  | 7 => some srl
  | _ => none

/-- The byte after the operation and the bit that left it. -/
def apply (op : RotOp) (v : Byte) (carry : Bool) : Byte × Bool :=
  match op with
  | rlc => ((v <<< 1) ||| (v >>> 7), v.bit 7)
  | rrc => ((v >>> 1) ||| (v <<< 7), v.bit 0)
  | rl => ((v <<< 1) ||| carry.toUInt8, v.bit 7)
  | rr => ((v >>> 1) ||| (carry.toUInt8 <<< 7), v.bit 0)
  | sla => (v <<< 1, v.bit 7)
  | sra => ((v >>> 1) ||| (v &&& 0x80), v.bit 0)
  | srl => (v >>> 1, v.bit 0)

/-- F after the operation, with result `r` and outgoing bit `carry`. -/
def flags (r : Byte) (carry : Bool) : Flags :=
  { Flags.ofLogical r with c := carry }

/-- F after the operation on the accumulator: S, Z and P/V stay. -/
def accumulatorFlags (r : Byte) (carry : Bool) (f : Flags) : Flags :=
  { f with y := r.bit 5, h := false, x := r.bit 3, n := false, c := carry }

end RotOp

/-- RLD on accumulator `a` and byte `m`: the three digits low `a`, high `m`,
    low `m` move one place to the left.  The new accumulator and byte. -/
def rotateDigitsLeft (a m : Byte) : Byte × Byte :=
  (.ofDigits a.highDigit m.highDigit, .ofDigits m.lowDigit a.lowDigit)

/-- RRD on accumulator `a` and byte `m`: the same three digits move one place to
    the right.  The new accumulator and byte. -/
def rotateDigitsRight (a m : Byte) : Byte × Byte :=
  (.ofDigits a.highDigit m.lowDigit, .ofDigits a.lowDigit m.highDigit)

end Z80
