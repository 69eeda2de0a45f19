/-
  Z80.Case.Basic

  Single-step test cases: the state of the processor before and after one
  instruction, the bus cycles between (one for each T-state) and the traffic on
  the ports.

  A case state carries a few fields that the processor does not have (the
  internal pointer, the latches behind EI and Q); they are kept so that a case
  can be written back as it was read.
-/

import Z80.Snapshot

namespace Z80

/-- The state in a test case. -/
structure CaseState where
  pc : Word := 0
  sp : Word := 0
  a : Byte := 0
  b : Byte := 0
  c : Byte := 0
  d : Byte := 0
  e : Byte := 0
  f : Byte := 0
  h : Byte := 0
  l : Byte := 0
  i : Byte := 0
  r : Byte := 0
  ix : Word := 0
  iy : Word := 0
  afAlt : Word := 0
  bcAlt : Word := 0
  deAlt : Word := 0
  hlAlt : Word := 0
  im : Byte := 0
  iff1 : Byte := 0
  iff2 : Byte := 0
  wz : Word := 0
  ei : Byte := 0
  p : Byte := 0
  q : Byte := 0
  ram : List (Word × Byte) := []
  deriving DecidableEq, Repr

/-- A bus cycle: the address and the data if the bus carries them, and the
    control pins. -/
structure BusCycle where
  address : Option Word
  data : Option Byte
  pins : String
  deriving DecidableEq, Repr

/-- An access to a port and its direction, a text that begins with `r` for a read
    and with `w` for a write. -/
structure PortAccess where
  port : Word
  value : Byte
  direction : String
  deriving DecidableEq, Repr

namespace PortAccess

/-- Whether the access is a read. -/
def isRead (p : PortAccess) : Bool :=
  p.direction.toList.head? == some 'r'

/-- Whether the access is a write. -/
def isWrite (p : PortAccess) : Bool :=
  p.direction.toList.head? == some 'w'

/-- The port with its value. -/
def cell (p : PortAccess) : Word × Byte :=
  (p.port, p.value)

end PortAccess

/-- A test case. -/
structure Case where
  name : String
  initial : CaseState
  final : CaseState
  cycles : List BusCycle
  ports : List PortAccess
  deriving DecidableEq, Repr

namespace Case

/-- The ports that the instruction is expected to read, with their values. -/
def portReads (c : Case) : List (Word × Byte) :=
  (c.ports.filter (·.isRead)).map (·.cell)

/-- The ports that the instruction is expected to write, with their values. -/
def portWrites (c : Case) : List (Word × Byte) :=
  (c.ports.filter (·.isWrite)).map (·.cell)

end Case

/-! ## Transfer to and from a machine -/

namespace CaseState

/-- The registers of a case state as a snapshot: a flip-flop is set by any value
    but zero, and the processor is not halted. -/
def snapshot (s : CaseState) : Snapshot where
  pc := s.pc
  sp := s.sp
  a := s.a
  f := s.f
  b := s.b
  c := s.c
  d := s.d
  e := s.e
  h := s.h
  l := s.l
  afAlt := s.afAlt
  bcAlt := s.bcAlt
  deAlt := s.deAlt
  hlAlt := s.hlAlt
  ix := s.ix
  iy := s.iy
  i := s.i
  r := s.r
  iff1 := s.iff1 != 0
  iff2 := s.iff2 != 0
  im := s.im
  halted := false

/-- The registers of a machine as a case state without memory cells. -/
def ofMachine (m : Machine) : CaseState where
  pc := m.regs.pc
  sp := m.regs.sp
  a := m.reg .a
  b := m.reg .b
  c := m.reg .c
  d := m.reg .d
  e := m.reg .e
  f := m.reg .f
  h := m.reg .h
  l := m.reg .l
  i := m.regs.i
  r := m.regs.r
  ix := m.regs.ix
  iy := m.regs.iy
  afAlt := m.regs.shadow.pair .af
  bcAlt := m.regs.shadow.pair .bc
  deAlt := m.regs.shadow.pair .de
  hlAlt := m.regs.shadow.pair .hl
  im := m.im
  iff1 := m.regs.iff1.toUInt8
  iff2 := m.regs.iff2.toUInt8

end CaseState

/-- The registers with those of a case state written one by one: a flip-flop is set by
    any value but zero. -/
def Registers.fill (k : Registers) (s : CaseState) : Registers :=
  let main : List (Reg8 × Byte) :=
    [(.a, s.a), (.f, s.f), (.b, s.b), (.c, s.c), (.d, s.d), (.e, s.e), (.h, s.h), (.l, s.l)]
  let shadow : List (Reg16 × Word) :=
    [(.af, s.afAlt), (.bc, s.bcAlt), (.de, s.deAlt), (.hl, s.hlAlt)]
  { main := main.foldl (fun bank (r, v) => bank.set r v) k.main
    shadow := shadow.foldl (fun bank (rr, w) => bank.setPair rr w) k.shadow
    ix := s.ix
    iy := s.iy
    sp := s.sp
    pc := s.pc
    i := s.i
    r := s.r
    iff1 := s.iff1 != 0
    iff2 := s.iff2 != 0 }

/-- The machine with the registers of a case state and its memory cells written
    in their order.  It is not halted. -/
def Machine.apply (m : Machine) (s : CaseState) : Machine :=
  { m with
    regs := m.regs.fill s
    im := s.im
    halted := false
    mem := m.mem.write s.ram }

/-- Whatever was there, the registers are where restoring them as a snapshot puts them. -/
theorem Machine.apply_eq_restore (m : Machine) (s : CaseState) :
    m.apply s = { m.restore s.snapshot with mem := m.mem.write s.ram } := rfl

end Z80
