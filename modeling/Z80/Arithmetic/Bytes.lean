/-
  Z80.Arithmetic.Bytes

  The 8-bit arithmetic unit: sums, differences and logical operations with the
  complete F they produce, the eight accumulator operations, INC and DEC, and
  the decimal adjustment of the accumulator.

  Carries are read off exact sums; half carries off the low digits; overflow is
  where both operands have a sign that the result has not.
-/

import Z80.Flags

namespace Z80

/-! ## Sums and differences -/

/-- The sum of two bytes and a carry, modulo 256. -/
def addByte (a b : Byte) (carry : Bool) : Byte :=
  a + b + carry.toUInt8

/-- The difference of two bytes less a borrow, modulo 256. -/
def subByte (a b : Byte) (borrow : Bool) : Byte :=
  a - b - borrow.toUInt8

/-- F after adding `b` and a carry to `a`. -/
def addFlags (a b : Byte) (carry : Bool) : Flags :=
  let r := addByte a b carry
  { Flags.ofResult r with
    h := 0x0F < (a &&& 0x0F) + (b &&& 0x0F) + carry.toUInt8
    pv := ((a ^^^ r) &&& (b ^^^ r)).bit 7
    c := 0xFF < a.toNat + b.toNat + carry.toNat }

/-- F after subtracting `b` and a borrow from `a`. -/
def subFlags (a b : Byte) (borrow : Bool) : Flags :=
  let r := subByte a b borrow
  { Flags.ofResult r with
    h := (a &&& 0x0F) < (b &&& 0x0F) + borrow.toUInt8
    pv := ((a ^^^ b) &&& (a ^^^ r)).bit 7
    n := true
    c := a.toNat < b.toNat + borrow.toNat }

/-- F after a logical operation with result `r`: AND sets the half carry, OR
    and XOR clear it. -/
def logicFlags (r : Byte) (half : Bool) : Flags :=
  { Flags.ofLogical r with h := half }

/-! ## Accumulator operations -/

/-- The operations of the accumulator with a byte. -/
inductive AluOp where
  | add | adc | sub | sbc | and | xor | or | cp
  deriving DecidableEq, Repr

namespace AluOp

/-- The operation selected by a three-bit opcode field. -/
def ofField (y : Byte) : AluOp :=
  match y &&& 7 with
  | 0 => add
  | 1 => adc
  | 2 => sub
  | 3 => sbc
  | 4 => and
  | 5 => xor
  | 6 => or
  | _ => cp

/-- The accumulator and F after the operation on accumulator `a` and byte `v`.
    CP leaves the accumulator and takes X and Y from the byte compared with. -/
def apply (op : AluOp) (a v : Byte) (carry : Bool) : Byte × Flags :=
  match op with
  | add => (addByte a v false, addFlags a v false)
  | adc => (addByte a v carry, addFlags a v carry)
  | sub => (subByte a v false, subFlags a v false)
  | sbc => (subByte a v carry, subFlags a v carry)
  | and => (a &&& v, logicFlags (a &&& v) true)
  | xor => (a ^^^ v, logicFlags (a ^^^ v) false)
  | or => (a ||| v, logicFlags (a ||| v) false)
  | cp => (a, { subFlags a v false with y := v.bit 5, x := v.bit 3 })

end AluOp

/-- F after INC of a byte that held `v`: a sum with one that keeps the carry. -/
def incFlags (v : Byte) (f : Flags) : Flags :=
  { addFlags v 1 false with c := f.c }

/-- F after DEC of a byte that held `v`: a difference with one that keeps the
    carry. -/
def decFlags (v : Byte) (f : Flags) : Flags :=
  { subFlags v 1 false with c := f.c }

/-! ## Decimal adjustment -/

/-- What DAA adds to or takes from the accumulator: 6 for a low digit that is
    no decimal digit or left one, 60h for a high one. -/
def daaCorrection (a : Byte) (f : Flags) : Byte :=
  (if f.h || 9 < a &&& 0x0F then 0x06 else 0) + (if f.c || 0x99 < a then 0x60 else 0)

/-- The accumulator and F after DAA. -/
def daa (a : Byte) (f : Flags) : Byte × Flags :=
  let r := if f.n then a - daaCorrection a f else a + daaCorrection a f
  let half := if f.n then f.h && (a &&& 0x0F) < 6 else 9 < a &&& 0x0F
  (r, { Flags.ofLogical r with h := half, n := f.n, c := f.c || 0x99 < a })

end Z80
