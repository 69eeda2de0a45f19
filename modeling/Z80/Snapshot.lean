/-
  Z80.Snapshot

  The programmer-visible state of the processor, saved and restored as one
  value, and its JSON form.

  A snapshot is complete: restoring one fixes every register, the interrupt mode
  and the halt latch (`snapshot_restore`), and what it does not hold is memory,
  ports, the clock and the time of the last step.
-/

import Z80.Json.Record
import Z80.Machine

namespace Z80

/-- Every register with the interrupt mode and the halt latch.  The main bank is
    kept byte by byte, the shadow bank as pairs. -/
structure Snapshot where
  pc : Word
  sp : Word
  a : Byte
  f : Byte
  b : Byte
  c : Byte
  d : Byte
  e : Byte
  h : Byte
  l : Byte
  afAlt : Word
  bcAlt : Word
  deAlt : Word
  hlAlt : Word
  ix : Word
  iy : Word
  i : Byte
  r : Byte
  iff1 : Bool
  iff2 : Bool
  im : Byte
  halted : Bool
  deriving DecidableEq, Repr

namespace Snapshot

/-- The pair AF. -/
def af (s : Snapshot) : Word := Word.ofBytes s.a s.f

/-- The pair BC. -/
def bc (s : Snapshot) : Word := Word.ofBytes s.b s.c

/-- The pair DE. -/
def de (s : Snapshot) : Word := Word.ofBytes s.d s.e

/-- The pair HL. -/
def hl (s : Snapshot) : Word := Word.ofBytes s.h s.l

/-- The registers of a snapshot. -/
def registers (s : Snapshot) : Registers where
  main := ⟨s.a, .ofByte s.f, s.b, s.c, s.d, s.e, s.h, s.l⟩
  shadow := ⟨s.afAlt.hi, .ofByte s.afAlt.lo, s.bcAlt.hi, s.bcAlt.lo, s.deAlt.hi, s.deAlt.lo,
    s.hlAlt.hi, s.hlAlt.lo⟩
  ix := s.ix
  iy := s.iy
  sp := s.sp
  pc := s.pc
  i := s.i
  r := s.r
  iff1 := s.iff1
  iff2 := s.iff2

end Snapshot

namespace Machine

/-- The state of a machine. -/
def snapshot (m : Machine) : Snapshot where
  pc := m.regs.pc
  sp := m.regs.sp
  a := m.reg .a
  f := m.reg .f
  b := m.reg .b
  c := m.reg .c
  d := m.reg .d
  e := m.reg .e
  h := m.reg .h
  l := m.reg .l
  afAlt := m.regs.shadow.pair .af
  bcAlt := m.regs.shadow.pair .bc
  deAlt := m.regs.shadow.pair .de
  hlAlt := m.regs.shadow.pair .hl
  ix := m.regs.ix
  iy := m.regs.iy
  i := m.regs.i
  r := m.regs.r
  iff1 := m.regs.iff1
  iff2 := m.regs.iff2
  im := m.im
  halted := m.halted

/-- The machine with the state of a snapshot. -/
def restore (m : Machine) (s : Snapshot) : Machine :=
  { m with regs := s.registers, im := s.im, halted := s.halted }

theorem snapshot_restore (m : Machine) (s : Snapshot) : (m.restore s).snapshot = s := by
  simp [snapshot, restore, Snapshot.registers, reg, Bank.get, Bank.pair, Reg16.high, Reg16.low]

theorem registers_snapshot (m : Machine) : m.snapshot.registers = m.regs := by
  simp [snapshot, Snapshot.registers, reg, Bank.get, Bank.pair, Reg16.high, Reg16.low]

theorem restore_snapshot (m : Machine) : m.restore m.snapshot = m := by
  simp [restore, registers_snapshot]
  simp [snapshot]

end Machine

/-! ## JSON form -/

namespace Snapshot

/-- The names of the fields, in the order they are written. -/
def fieldNames : List String :=
  ["pc", "sp", "a", "f", "b", "c", "d", "e", "h", "l", "af_alt", "bc_alt", "de_alt", "hl_alt",
   "ix", "iy", "i", "r", "iff1", "iff2", "im", "halted"]

/-- The values of the fields, in the same order. -/
def fieldValues (s : Snapshot) : List Json :=
  let byte (b : Byte) := Json.ofNat b.toNat
  let word (w : Word) := Json.ofNat w.toNat
  [word s.pc, word s.sp, byte s.a, byte s.f, byte s.b, byte s.c, byte s.d, byte s.e, byte s.h,
   byte s.l, word s.afAlt, word s.bcAlt, word s.deAlt, word s.hlAlt, word s.ix, word s.iy,
   byte s.i, byte s.r, .bool s.iff1, .bool s.iff2, byte s.im, .bool s.halted]

/-- The object of a snapshot. -/
def toJson (s : Snapshot) : Json :=
  .object (fieldNames.zip s.fieldValues)

/-- The snapshot in an object.  Every field must be there, whole and in range;
    others are ignored. -/
def ofJson? (v : Json) : Option Snapshot := do
  let field ← v.record? fieldNames
  let byte (n : String) := (field n).bind Json.byte?
  let word (n : String) := (field n).bind Json.word?
  let bool (n : String) := (field n).bind Json.bool?
  some {
    pc := ← word "pc"
    sp := ← word "sp"
    a := ← byte "a"
    f := ← byte "f"
    b := ← byte "b"
    c := ← byte "c"
    d := ← byte "d"
    e := ← byte "e"
    h := ← byte "h"
    l := ← byte "l"
    afAlt := ← word "af_alt"
    bcAlt := ← word "bc_alt"
    deAlt := ← word "de_alt"
    hlAlt := ← word "hl_alt"
    ix := ← word "ix"
    iy := ← word "iy"
    i := ← byte "i"
    r := ← byte "r"
    iff1 := ← bool "iff1"
    iff2 := ← bool "iff2"
    im := ← byte "im"
    halted := ← bool "halted" }

end Snapshot

end Z80
