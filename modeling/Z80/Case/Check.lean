/-
  Z80.Case.Check

  Running a test case on a machine as it is at power-on and comparing what comes
  out with what the case expects.  The comparison goes through the registers in
  a fixed order, then the memory cells, the ports written and the number of bus
  cycles; the first difference is the verdict.
-/

import Z80.Case.Basic
import Z80.Step
import Z80.Text.Hex

namespace Z80

/-- The registers that a case compares. -/
inductive CaseRegister where
  | a | f | b | c | d | e | h | l | i | r | ix | iy | sp | pc | im | iff1 | iff2
  | afAlt | bcAlt | deAlt | hlAlt
  deriving DecidableEq, Repr

namespace CaseRegister

/-- The registers in the order of comparison. -/
def all : List CaseRegister :=
  [a, f, b, c, d, e, h, l, i, r, ix, iy, sp, pc, im, iff1, iff2, afAlt, bcAlt, deAlt, hlAlt]

/-- The name of a register. -/
def name : CaseRegister → String
  | a => "A"
  | f => "F"
  | b => "B"
  | c => "C"
  | d => "D"
  | e => "E"
  | h => "H"
  | l => "L"
  | i => "I"
  | r => "R"
  | ix => "IX"
  | iy => "IY"
  | sp => "SP"
  | pc => "PC"
  | im => "IM"
  | iff1 => "IFF1"
  | iff2 => "IFF2"
  | afAlt => "AF'"
  | bcAlt => "BC'"
  | deAlt => "DE'"
  | hlAlt => "HL'"

/-- The value of a register as far as it is compared: of F the bits in `mask`, of
    a flip-flop whether it is set. -/
def value (mask : Byte) (s : CaseState) : CaseRegister → Nat
  | a => s.a.toNat
  | f => (s.f &&& mask).toNat
  | b => s.b.toNat
  | c => s.c.toNat
  | d => s.d.toNat
  | e => s.e.toNat
  | h => s.h.toNat
  | l => s.l.toNat
  | i => s.i.toNat
  | r => s.r.toNat
  | ix => s.ix.toNat
  | iy => s.iy.toNat
  | sp => s.sp.toNat
  | pc => s.pc.toNat
  | im => s.im.toNat
  | iff1 => (s.iff1 != 0).toNat
  | iff2 => (s.iff2 != 0).toNat
  | afAlt => s.afAlt.toNat
  | bcAlt => s.bcAlt.toNat
  | deAlt => s.deAlt.toNat
  | hlAlt => s.hlAlt.toNat

end CaseRegister

/-- What a comparison is about. -/
inductive Item where
  | register (reg : CaseRegister)
  | memory (a : Word)
  | port (a : Word)
  | cycles
  deriving DecidableEq, Repr

/-- The name of an item. -/
def Item.name : Item → String
  | register reg => reg.name
  | memory a => "RAM[0x" ++ Hex.upper 4 a.toNat ++ "]"
  | port a => "PORT[0x" ++ Hex.upper 4 a.toNat ++ "]"
  | cycles => "cycles"

/-- An item with the value found and the value expected. -/
structure Comparison where
  item : Item
  found : Nat
  expected : Nat
  deriving DecidableEq, Repr

/-- Whether the values differ. -/
def Comparison.differs (c : Comparison) : Bool :=
  c.found != c.expected

namespace Case

/-- The flag bits that are documented: all but X and Y. -/
def documentedFlags : Byte := 0xD7

/-- A machine brought to the beginning of a case: its registers, and the memory
    cells and ports that the case names. -/
def startOn (c : Case) (m : Machine) : Machine :=
  let m := m.apply c.initial
  { m with ports := m.ports.write c.portReads }

/-- The machine that a case starts from. -/
def start (c : Case) : Machine :=
  c.startOn (.initial {})

/-- All comparisons of a case with a machine after the instruction. -/
def comparisons (c : Case) (mask : Byte) (m : Machine) : List Comparison :=
  let found := CaseState.ofMachine m
  CaseRegister.all.map (fun reg =>
    ⟨.register reg, reg.value mask found, reg.value mask c.final⟩) ++
  c.final.ram.map (fun (a, v) => ⟨.memory a, (m.mem.get a).toNat, v.toNat⟩) ++
  c.portWrites.map (fun (a, v) => ⟨.port a, (m.ports.get a).toNat, v.toNat⟩) ++
  [⟨.cycles, m.cycles, c.cycles.length⟩]

/-- The first difference between a case and what the machine does; of F only the
    bits in `mask` count. -/
def mismatch? (c : Case) (mask : Byte) : Option Comparison :=
  (c.comparisons mask c.start.step).find? (·.differs)

/-- The message of a difference. -/
def mismatchMessage (c : Case) (m : Comparison) : String :=
  c.name ++ ": " ++ m.item.name ++ " (got 0x" ++ Hex.short m.found ++ " exp 0x" ++
    Hex.short m.expected ++ ")"

/-- The message of the first difference of a case, if there is one. -/
def verdict (c : Case) (mask : Byte) : Option String :=
  (c.mismatch? mask).map c.mismatchMessage

end Case

end Z80
