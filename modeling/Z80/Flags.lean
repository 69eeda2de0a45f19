/-
  Z80.Flags

  The flag register F as eight named bits, and its byte form.  The byte form is
  a bijection (`ofByte_toByte`, `toByte_ofByte`), so F survives PUSH AF and
  POP AF unchanged, the two undocumented bits X and Y included.
-/

import Z80.Word

namespace Z80

/-- The eight bits of F, from the least significant. -/
inductive Flag where
  /-- Carry. -/
  | c
  /-- The last operation was a subtraction. -/
  | n
  /-- Parity or overflow. -/
  | pv
  /-- Undocumented: bit 3 of a result. -/
  | x
  /-- Half carry, out of bit 3. -/
  | h
  /-- Undocumented: bit 5 of a result. -/
  | y
  /-- Zero. -/
  | z
  /-- Sign. -/
  | s
  deriving DecidableEq, Repr

/-- The flag register. -/
structure Flags where
  s : Bool := false
  z : Bool := false
  y : Bool := false
  h : Bool := false
  x : Bool := false
  pv : Bool := false
  n : Bool := false
  c : Bool := false
  deriving DecidableEq, Repr, Inhabited

namespace Flags

/-- The flags as the byte with S in bit 7 and C in bit 0. -/
def toByte (f : Flags) : Byte :=
  (bif f.s then 0x80 else 0) + (bif f.z then 0x40 else 0) +
  (bif f.y then 0x20 else 0) + (bif f.h then 0x10 else 0) +
  (bif f.x then 0x08 else 0) + (bif f.pv then 0x04 else 0) +
  (bif f.n then 0x02 else 0) + (bif f.c then 0x01 else 0)

/-- The flags held in a byte. -/
def ofByte (b : Byte) : Flags where
  s := b.bit 7
  z := b.bit 6
  y := b.bit 5
  h := b.bit 4
  x := b.bit 3
  pv := b.bit 2
  n := b.bit 1
  c := b.bit 0

@[simp] theorem ofByte_toByte (f : Flags) : ofByte f.toByte = f := by
  obtain ⟨s, z, y, h, x, pv, n, c⟩ := f
  revert s z y h x pv n c
  decide

@[simp] theorem toByte_ofByte (b : Byte) : (ofByte b).toByte = b := by
  revert b
  rw [Byte.forall_iff]
  decide +kernel

/-- One flag. -/
def get (f : Flags) : Flag → Bool
  | .c => f.c
  | .n => f.n
  | .pv => f.pv
  | .x => f.x
  | .h => f.h
  | .y => f.y
  | .z => f.z
  | .s => f.s

/-- The flags with one of them replaced. -/
def set (f : Flags) (flag : Flag) (on : Bool) : Flags :=
  match flag with
  | .c => { f with c := on }
  | .n => { f with n := on }
  | .pv => { f with pv := on }
  | .x => { f with x := on }
  | .h => { f with h := on }
  | .y => { f with y := on }
  | .z => { f with z := on }
  | .s => { f with s := on }

theorem get_set (f : Flags) (flag other : Flag) (on : Bool) :
    (f.set flag on).get other = if other = flag then on else f.get other := by
  cases flag <;> cases other <;> rfl

/-- The sign, zero and undocumented flags of a result byte; the others clear. -/
def ofResult (r : Byte) : Flags where
  s := r.bit 7
  z := r == 0
  y := r.bit 5
  x := r.bit 3

/-- The flags of a result byte as a logical value: as `ofResult`, with even
    parity in P/V. -/
def ofLogical (r : Byte) : Flags :=
  { ofResult r with pv := r.evenParity }

end Flags

end Z80
