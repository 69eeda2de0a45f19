/-
  Z80.Machine

  The processor with its memory and ports, and the reading and writing of
  operands, register pairs and the stack.
-/

import Z80.Clock
import Z80.Instr
import Z80.Space

namespace Z80

/-- The processor together with its 64K of memory and its 64K of ports. -/
structure Machine where
  regs : Registers
  mem : Space
  ports : Space
  /-- The interrupt mode. -/
  im : Byte
  /-- Whether a HALT has been executed since the last reset. -/
  halted : Bool
  /-- The T-states of the last instruction. -/
  cycles : Nat
  clock : Clock
  deriving Inhabited

namespace Machine

/-- The machine at power-on, its memory and ports zero. -/
def initial (clock : Clock) : Machine where
  regs := .initial
  mem := .zero
  ports := .zero
  im := 0
  halted := false
  cycles := 0
  clock := clock

/-- The machine after a reset: as at power-on, but with memory and ports kept. -/
def reset (m : Machine) : Machine :=
  { m with regs := .initial, im := 0, halted := false, cycles := 0 }

/-! ## Registers -/

/-- The flags. -/
def flags (m : Machine) : Flags :=
  m.regs.main.f

/-- The machine with F replaced. -/
def setFlags (m : Machine) (f : Flags) : Machine :=
  { m with regs := { m.regs with main := { m.regs.main with f } } }

/-- The byte in a register of the main bank. -/
def reg (m : Machine) (r : Reg8) : Byte :=
  m.regs.main.get r

/-- The machine with a register of the main bank replaced. -/
def setReg (m : Machine) (r : Reg8) (v : Byte) : Machine :=
  { m with regs := { m.regs with main := m.regs.main.set r v } }

/-- The accumulator. -/
def a (m : Machine) : Byte :=
  m.regs.main.a

/-- The machine with the accumulator and F replaced. -/
def setAf (m : Machine) (a : Byte) (f : Flags) : Machine :=
  { m with regs := { m.regs with main := { m.regs.main with a, f } } }

/-- The machine with the accumulator replaced. -/
def setA (m : Machine) (a : Byte) : Machine :=
  { m with regs := { m.regs with main := { m.regs.main with a } } }

/-- The word in a register pair. -/
def pair (m : Machine) : Pair → Word
  | .bank rr => m.regs.main.pair rr
  | .sp => m.regs.sp
  | .index x => m.regs.index x

/-- The machine with a register pair replaced. -/
def setPair (m : Machine) (rr : Pair) (w : Word) : Machine :=
  match rr with
  | .bank rr => { m with regs := { m.regs with main := m.regs.main.setPair rr w } }
  | .sp => { m with regs := { m.regs with sp := w } }
  | .index x => { m with regs := m.regs.setIndex x w }

/-- The program counter. -/
def pc (m : Machine) : Word :=
  m.regs.pc

/-- The machine with the program counter replaced. -/
def setPc (m : Machine) (w : Word) : Machine :=
  { m with regs := { m.regs with pc := w } }

/-- BC, as a pointer, a counter or a port number. -/
def bc (m : Machine) : Word := m.regs.main.pair .bc

/-- DE, as a pointer. -/
def de (m : Machine) : Word := m.regs.main.pair .de

/-- HL, as a pointer. -/
def hl (m : Machine) : Word := m.regs.main.pair .hl

/-! ## Memory and ports -/

/-- The machine with one memory cell replaced. -/
def store (m : Machine) (a : Word) (v : Byte) : Machine :=
  { m with mem := m.mem.set a v }

/-- The machine with two adjacent memory cells replaced. -/
def storeWord (m : Machine) (a w : Word) : Machine :=
  { m with mem := m.mem.setWord a w }

/-- The machine with one port cell replaced. -/
def output (m : Machine) (port : Word) (v : Byte) : Machine :=
  { m with ports := m.ports.set port v }

/-! ## Operands -/

/-- The address of a memory operand. -/
def address? (m : Machine) : Operand → Option Word
  | .hl => some m.hl
  | .indexed x d => some ((m.regs.index x).displace d)
  | _ => none

/-- The byte in an operand. -/
def read (m : Machine) : Operand → Byte
  | .reg r => m.reg r
  | .high x => m.regs.indexHigh x
  | .low x => m.regs.indexLow x
  | .hl => m.mem.get m.hl
  | .indexed x d => m.mem.get ((m.regs.index x).displace d)

/-- The machine with an operand replaced. -/
def write (m : Machine) (o : Operand) (v : Byte) : Machine :=
  match o with
  | .reg r => m.setReg r v
  | .high x => { m with regs := m.regs.setIndexHigh x v }
  | .low x => { m with regs := m.regs.setIndexLow x v }
  | .hl => m.store m.hl v
  | .indexed x d => m.store ((m.regs.index x).displace d) v

/-- The machine with a register replaced, if there is one to replace. -/
def copyTo (m : Machine) (r? : Option Reg8) (v : Byte) : Machine :=
  match r? with
  | some r => m.setReg r v
  | none => m

/-! ## The stack -/

/-- A word pushed: SP moves down by two and the word goes there. -/
def push (m : Machine) (w : Word) : Machine :=
  let sp := m.regs.sp - 2
  { m with regs := { m.regs with sp }, mem := m.mem.setWord sp w }

/-- The word on top of the stack. -/
def top (m : Machine) : Word :=
  m.mem.getWord m.regs.sp

/-- The top word dropped: SP moves up by two. -/
def drop (m : Machine) : Machine :=
  { m with regs := { m.regs with sp := m.regs.sp + 2 } }

end Machine

end Z80
