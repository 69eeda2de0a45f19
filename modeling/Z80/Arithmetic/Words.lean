/-
  Z80.Arithmetic.Words

  16-bit sums and differences with the flags they produce.  The half carry
  leaves bit 11, and X and Y come from the high byte of the result.  ADD keeps
  S, Z and P/V; ADC and SBC set all of F.
-/

import Z80.Flags

namespace Z80

/-- F after ADD of two words. -/
def addWordFlags (a b : Word) (f : Flags) : Flags :=
  { f with
    y := (a + b).hi.bit 5
    h := 0x0FFF < a.toNat % 0x1000 + b.toNat % 0x1000
    x := (a + b).hi.bit 3
    n := false
    c := 0xFFFF < a.toNat + b.toNat }

/-- The sum of two words and a carry, modulo 2^16. -/
def adcWord (a b : Word) (carry : Bool) : Word :=
  a + b + carry.toUInt16

/-- The difference of two words less a borrow, modulo 2^16. -/
def sbcWord (a b : Word) (borrow : Bool) : Word :=
  a - b - borrow.toUInt16

/-- The sign, zero and undocumented flags of a result word. -/
def wordResultFlags (r : Word) : Flags where
  s := r.hi.bit 7
  z := r == 0
  y := r.hi.bit 5
  x := r.hi.bit 3

/-- F after ADC of two words. -/
def adcWordFlags (a b : Word) (carry : Bool) : Flags :=
  let r := adcWord a b carry
  { wordResultFlags r with
    h := 0x0FFF < a.toNat % 0x1000 + b.toNat % 0x1000 + carry.toNat
    pv := ((a ^^^ r) &&& (b ^^^ r)).hi.bit 7
    c := 0xFFFF < a.toNat + b.toNat + carry.toNat }

/-- F after SBC of two words. -/
def sbcWordFlags (a b : Word) (borrow : Bool) : Flags :=
  let r := sbcWord a b borrow
  { wordResultFlags r with
    h := a.toNat % 0x1000 < b.toNat % 0x1000 + borrow.toNat
    pv := ((a ^^^ b) &&& (a ^^^ r)).hi.bit 7
    n := true
    c := a.toNat < b.toNat + borrow.toNat }

end Z80
