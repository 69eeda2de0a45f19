/-
  Z80.Effect

  What each instruction does to the machine once it has been fetched: the
  program counter stands behind its last byte and R has counted its fetches.

  Whether a conditional transfer happens, or a block instruction runs again, is
  decided once, on the machine before the effect (`Instr.taken`); effect and
  timing both follow that decision.
-/

import Z80.Arithmetic.Words
import Z80.Machine

namespace Z80

/-! ## Flags of single groups -/

/-- F after BIT: Z and P/V are the inverse of the tested bit and S is set only
    by bit 7.  X and Y come from `source`. -/
def bitFlags (n : Fin 8) (v source : Byte) (f : Flags) : Flags where
  s := n == 7 && v.bit n
  z := !v.bit n
  y := source.bit 5
  h := true
  x := source.bit 3
  pv := !v.bit n
  n := false
  c := f.c

/-- F after LD A,I and LD A,R: P/V shows the second interrupt flip-flop. -/
def specialLoadFlags (v : Byte) (iff2 : Bool) (f : Flags) : Flags :=
  { Flags.ofResult v with pv := iff2, c := f.c }

/-- F after a byte `v` is copied by LDI and its kin, with `counter` left in BC.
    X and Y are bits 3 and 1 of the sum of the byte and the accumulator. -/
def blockLoadFlags (a v : Byte) (counter : Word) (f : Flags) : Flags :=
  { f with
    y := (v + a).bit 1
    h := false
    x := (v + a).bit 3
    pv := counter != 0
    n := false }

/-- F after the accumulator is compared with a byte `v` by CPI and its kin, with
    `counter` left in BC.  X and Y are bits 3 and 1 of the difference less the
    half carry. -/
def blockCompareFlags (a v : Byte) (counter : Word) (f : Flags) : Flags :=
  let sub := subFlags a v false
  let n := a - v - sub.h.toUInt8
  { sub with y := n.bit 1, x := n.bit 3, pv := counter != 0, c := f.c }

/-- F after a byte `v` is moved by INI, OUTI and their kin, with `b` left in B.
    `k` is the exact sum of the byte and a low pointer. -/
def blockIoFlags (b v : Byte) (k : Nat) : Flags :=
  { Flags.ofResult b with
    h := 0xFF < k
    pv := Byte.evenParity ((k.toUInt8 &&& 7) ^^^ b)
    n := v.bit 7
    c := 0xFF < k }

/-! ## Block instructions -/

namespace Machine

/-- One byte copied from HL to DE; the pointers move and BC counts down. -/
def blockLoad (m : Machine) (delta : Word) : Machine :=
  let v := m.mem.get m.hl
  let counter := m.bc - 1
  let k := m.regs.main
  let k := (k.setPair .hl (m.hl + delta)).setPair .de (m.de + delta)
  let k := k.setPair .bc counter
  { m with
    regs := { m.regs with main := { k with f := blockLoadFlags m.a v counter m.flags } }
    mem := m.mem.set m.de v }

/-- The accumulator compared with the cell at HL; HL moves and BC counts down. -/
def blockCompare (m : Machine) (delta : Word) : Machine :=
  let v := m.mem.get m.hl
  let counter := m.bc - 1
  let k := (m.regs.main.setPair .hl (m.hl + delta)).setPair .bc counter
  { m with regs := { m.regs with
      main := { k with f := blockCompareFlags m.a v counter m.flags } } }

/-- The port at BC read into the cell at HL; HL moves and B counts down. -/
def blockInput (m : Machine) (delta : Word) : Machine :=
  let v := m.ports.get m.bc
  let b := m.reg .b - 1
  let low := m.reg .c + delta.lo
  let k := (m.regs.main.setPair .hl (m.hl + delta)).set .b b
  { m with
    regs := { m.regs with main := { k with f := blockIoFlags b v (v.toNat + low.toNat) } }
    mem := m.mem.set m.hl v }

/-- B counts down, then the cell at HL is written to the port at BC; HL moves. -/
def blockOutput (m : Machine) (delta : Word) : Machine :=
  let v := m.mem.get m.hl
  let b := m.reg .b - 1
  let hl := m.hl + delta
  let k := (m.regs.main.set .b b).setPair .hl hl
  { m with
    regs := { m.regs with main := { k with f := blockIoFlags b v (v.toNat + hl.lo.toNat) } }
    ports := m.ports.set (Word.ofBytes b (m.reg .c)) v }

/-- One round of a block instruction. -/
def block (m : Machine) (op : BlockOp) (dir : Direction) : Machine :=
  match op with
  | .load => m.blockLoad dir.delta
  | .compare => m.blockCompare dir.delta
  | .input => m.blockInput dir.delta
  | .output => m.blockOutput dir.delta

/-- Whether a block instruction has work left after its next round. -/
def blockContinues (m : Machine) : BlockOp → Bool
  | .load => m.bc - 1 != 0
  | .compare => m.bc - 1 != 0 && m.a != m.mem.get m.hl
  | .input => m.reg .b - 1 != 0
  | .output => m.reg .b - 1 != 0

/-! ## Other groups -/

/-- An operation on the accumulator and a byte. -/
def alu (m : Machine) (op : AluOp) (v : Byte) : Machine :=
  let r := op.apply m.a v m.flags.c
  m.setAf r.1 r.2

/-- A rotation or shift of an operand. -/
def rotate (m : Machine) (op : RotOp) (target : Operand) (copy : Option Reg8) : Machine :=
  let r := op.apply (m.read target) m.flags.c
  ((m.write target r.1).copyTo copy r.1).setFlags (RotOp.flags r.1 r.2)

/-- INC or DEC of an operand: its new byte and the new F. -/
def replace (m : Machine) (dst : Operand) (v : Byte) (f : Flags) : Machine :=
  (m.write dst v).setFlags f

/-- The accumulator and the cell at HL after a digit rotation. -/
def rotateDigits (m : Machine) (r : Byte × Byte) : Machine :=
  let f := { Flags.ofLogical r.1 with c := m.flags.c }
  (m.store m.hl r.2).setAf r.1 f

/-- A jump of the program counter, if it happens. -/
def jumpIf (m : Machine) (taken : Bool) (target : Word) : Machine :=
  if taken then m.setPc target else m

/-- A call, if it happens: the program counter is pushed first. -/
def callIf (m : Machine) (taken : Bool) (target : Word) : Machine :=
  if taken then (m.push m.pc).setPc target else m

/-- A return, if it happens. -/
def returnIf (m : Machine) (taken : Bool) : Machine :=
  if taken then m.drop.setPc m.top else m

end Machine

/-! ## Instructions -/

namespace Instr

/-- Whether a condition, if there is one, holds of the flags. -/
def condHolds (cc? : Option Cond) (f : Flags) : Bool :=
  match cc? with
  | none => true
  | some cc => cc.holds f

/-- Whether the transfer of an instruction happens or its block repeats. -/
def taken (i : Instr) (m : Machine) : Bool :=
  match i with
  | jp cc? _ => condHolds cc? m.flags
  | jr cc? _ => condHolds cc? m.flags
  | djnz _ => m.reg .b - 1 != 0
  | call cc? _ => condHolds cc? m.flags
  | ret cc? => condHolds cc? m.flags
  | block op _ repeats => repeats && m.blockContinues op
  | _ => false

/-- The machine after a fetched instruction. -/
def effect (i : Instr) (taken : Bool) (m : Machine) : Machine :=
  match i with
  | nop => m
  | ld dst src => m.write dst (m.read src)
  | ldByte dst n => m.write dst n
  | ldAFromPair rr => m.setA (m.mem.get (m.pair (.bank rr)))
  | ldAToPair rr => m.store (m.pair (.bank rr)) m.a
  | ldAFrom nn => m.setA (m.mem.get nn)
  | ldATo nn => m.store nn m.a
  | ldIA => { m with regs := { m.regs with i := m.a } }
  | ldRA => { m with regs := { m.regs with r := m.a } }
  | ldAI => m.setAf m.regs.i (specialLoadFlags m.regs.i m.regs.iff2 m.flags)
  | ldAR => m.setAf m.regs.r (specialLoadFlags m.regs.r m.regs.iff2 m.flags)
  | ldWord rr nn => m.setPair rr nn
  | ldPairFrom rr nn => m.setPair rr (m.mem.getWord nn)
  | ldPairTo rr nn => m.storeWord nn (m.pair rr)
  | ldSp rr => m.setPair .sp (m.pair rr)
  | push rr => m.push (m.pair rr)
  | pop rr => m.drop.setPair rr m.top
  | exDeHl => (m.setPair (.bank .de) m.hl).setPair (.bank .hl) m.de
  | exAf => { m with regs := m.regs.exchangeAf }
  | exx => { m with regs := m.regs.exchangeMain }
  | exSp rr =>
    let w := m.top
    (m.storeWord m.regs.sp (m.pair rr)).setPair rr w
  | alu op src => m.alu op (m.read src)
  | aluByte op n => m.alu op n
  | inc dst => m.replace dst (m.read dst + 1) (incFlags (m.read dst) m.flags)
  | dec dst => m.replace dst (m.read dst - 1) (decFlags (m.read dst) m.flags)
  | addPair dst src =>
    (m.setFlags (addWordFlags (m.pair dst) (m.pair src) m.flags)).setPair dst
      (m.pair dst + m.pair src)
  | adcHl src =>
    (m.setFlags (adcWordFlags m.hl (m.pair src) m.flags.c)).setPair (.bank .hl)
      (adcWord m.hl (m.pair src) m.flags.c)
  | sbcHl src =>
    (m.setFlags (sbcWordFlags m.hl (m.pair src) m.flags.c)).setPair (.bank .hl)
      (sbcWord m.hl (m.pair src) m.flags.c)
  | incPair rr => m.setPair rr (m.pair rr + 1)
  | decPair rr => m.setPair rr (m.pair rr - 1)
  | daa => m.setAf (Z80.daa m.a m.flags).1 (Z80.daa m.a m.flags).2
  | cpl =>
    let a := ~~~m.a
    m.setAf a { m.flags with y := a.bit 5, h := true, x := a.bit 3, n := true }
  | neg => m.setAf (subByte 0 m.a false) (subFlags 0 m.a false)
  | ccf =>
    m.setFlags { m.flags with
      y := m.a.bit 5, h := m.flags.c, x := m.a.bit 3, n := false, c := !m.flags.c }
  | scf =>
    m.setFlags { m.flags with y := m.a.bit 5, h := false, x := m.a.bit 3, n := false, c := true }
  | rotA op =>
    let r := op.apply m.a m.flags.c
    m.setAf r.1 (RotOp.accumulatorFlags r.1 r.2 m.flags)
  | rot op target copy => m.rotate op target copy
  | rld => m.rotateDigits (rotateDigitsLeft m.a (m.mem.get m.hl))
  | rrd => m.rotateDigits (rotateDigitsRight m.a (m.mem.get m.hl))
  | bit n src =>
    -- memory forms show the high byte of the address in X and Y
    let source := ((m.address? src).map Word.hi).getD (m.read src)
    m.setFlags (bitFlags n (m.read src) source m.flags)
  | res n target copy =>
    let v := m.read target &&& ~~~((1 : Byte) <<< n.val.toUInt8)
    (m.write target v).copyTo copy v
  | set n target copy =>
    let v := m.read target ||| ((1 : Byte) <<< n.val.toUInt8)
    (m.write target v).copyTo copy v
  | jp _ nn => m.jumpIf taken nn
  | jpPair rr => m.setPc (m.pair rr)
  | jr _ d => m.jumpIf taken (m.pc.displace d)
  | djnz d => (m.setReg .b (m.reg .b - 1)).jumpIf taken (m.pc.displace d)
  | call _ nn => m.callIf taken nn
  | ret _ => m.returnIf taken
  | retn => { m.drop.setPc m.top with regs.iff1 := m.regs.iff2 }
  | rst target => m.callIf true target.toUInt16
  | inA n => m.setA (m.ports.get (Word.ofBytes m.a n))
  | outA n => m.output (Word.ofBytes m.a n) m.a
  | inC r =>
    let v := m.ports.get m.bc
    (m.setReg r v).setFlags { Flags.ofLogical v with c := m.flags.c }
  | outC r => m.output m.bc (m.reg r)
  | block op dir _ => (m.block op dir).jumpIf taken (m.pc - 2)
  | halt => { m with halted := true }
  | di => { m with regs := { m.regs with iff1 := false, iff2 := false } }
  | ei => { m with regs := { m.regs with iff1 := true, iff2 := true } }
  | im mode => { m with im := mode }
  | unimplemented _ => m

end Instr

end Z80
