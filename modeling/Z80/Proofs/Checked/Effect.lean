/-
  Z80.Proofs.Checked.Effect

  What each instruction does, by checked operations.

  Every register, cell and port is reached by its place, F comes from the tables wherever
  the arithmetic unit takes it from there, and sums and bit numbers are checked.  The effect
  of an instruction then may fail in each of its parts, and does in none: it is that of the
  machine (`Instr.effect?_eq`).
-/

import Z80.Effect
import Z80.Proofs.Checked.Storage
import Z80.Proofs.Checked.Tables

namespace Z80

open Checked

namespace Machine

variable (m : Machine) (t : Tables)

/-! ## Registers -/

/-- The byte in a register of the main bank. -/
def reg? (r : Reg8) : Option Byte :=
  m.regs.main.get? r

/-- The machine with a register of the main bank replaced. -/
def setReg? (r : Reg8) (v : Byte) : Option Machine := do
  let main ← m.regs.main.set? r v
  return { m with regs := { m.regs with main } }

/-- The flags. -/
def flags? : Option Flags :=
  (m.reg? .f).map Flags.ofByte

/-- The machine with F replaced. -/
def setFlags? (f : Flags) : Option Machine :=
  m.setReg? .f f.toByte

/-- The machine with the accumulator and F replaced. -/
def setAf? (a : Byte) (f : Flags) : Option Machine := do
  let m ← m.setReg? .a a
  m.setFlags? f

/-- The word in a register pair. -/
def pair? : Pair → Option Word
  | .bank rr => m.regs.main.pair? rr
  | .sp => some m.regs.sp
  | .index x => some (m.regs.index x)

/-- The machine with a register pair replaced. -/
def setPair? (rr : Pair) (w : Word) : Option Machine :=
  match rr with
  | .bank rr => do
    let main ← m.regs.main.setPair? rr w
    return { m with regs := { m.regs with main } }
  | .sp => some { m with regs := { m.regs with sp := w } }
  | .index x => some { m with regs := m.regs.setIndex x w }

@[simp] theorem reg?_eq (r : Reg8) : m.reg? r = some (m.reg r) :=
  m.regs.main.get?_eq r

@[simp] theorem setReg?_eq (r : Reg8) (v : Byte) : m.setReg? r v = some (m.setReg r v) := by
  rw [setReg?, Bank.set?_eq]
  rfl

@[simp] theorem flags?_eq : m.flags? = some m.flags := by
  rw [flags?, reg?_eq, Option.map_some, reg, Bank.get, Flags.ofByte_toByte]
  rfl

@[simp] theorem setFlags?_eq (f : Flags) : m.setFlags? f = some (m.setFlags f) := by
  rw [setFlags?, setReg?_eq, setReg, Bank.set, Flags.ofByte_toByte]
  rfl

@[simp] theorem setAf?_eq (a : Byte) (f : Flags) : m.setAf? a f = some (m.setAf a f) := by
  rw [setAf?, setReg?_eq, Option.bind_eq_bind, Option.bind_some, setFlags?_eq]
  rfl

@[simp] theorem pair?_eq (rr : Pair) : m.pair? rr = some (m.pair rr) := by
  cases rr with
  | bank rr => exact m.regs.main.pair?_eq rr
  | sp => rfl
  | index x => rfl

@[simp] theorem setPair?_eq (rr : Pair) (w : Word) : m.setPair? rr w = some (m.setPair rr w) := by
  cases rr with
  | bank rr =>
    rw [setPair?, Bank.setPair?_eq]
    rfl
  | sp => rfl
  | index x => rfl

/-! ## Memory and ports -/

/-- The byte in a memory cell. -/
def cell? (a : Word) : Option Byte :=
  m.mem.read? a.toNat

/-- The machine with one memory cell replaced. -/
def store? (a : Word) (v : Byte) : Option Machine := do
  let mem ← m.mem.write? a.toNat v
  return { m with mem }

/-- The machine with two adjacent memory cells replaced. -/
def storeWord? (a w : Word) : Option Machine := do
  let mem ← m.mem.writeWord? a w
  return { m with mem }

/-- The byte in a port cell. -/
def input? (port : Word) : Option Byte :=
  m.ports.read? port.toNat

/-- The machine with one port cell replaced. -/
def output? (port : Word) (v : Byte) : Option Machine := do
  let ports ← m.ports.write? port.toNat v
  return { m with ports }

@[simp] theorem cell?_eq (a : Word) : m.cell? a = some (m.mem.get a) :=
  m.mem.read?_eq a

@[simp] theorem store?_eq (a : Word) (v : Byte) : m.store? a v = some (m.store a v) := by
  rw [store?, Space.write?_eq]
  rfl

@[simp] theorem storeWord?_eq (a w : Word) : m.storeWord? a w = some (m.storeWord a w) := by
  rw [storeWord?, Space.writeWord?_eq]
  rfl

@[simp] theorem input?_eq (port : Word) : m.input? port = some (m.ports.get port) :=
  m.ports.read?_eq port

@[simp] theorem output?_eq (port : Word) (v : Byte) :
    m.output? port v = some (m.output port v) := by
  rw [output?, Space.write?_eq]
  rfl

/-! ## Operands -/

/-- The byte in an operand. -/
def read? : Operand → Option Byte
  | .reg r => m.reg? r
  | .high x => some (m.regs.indexHigh x)
  | .low x => some (m.regs.indexLow x)
  | .hl => do
    let hl ← m.pair? (.bank .hl)
    m.cell? hl
  | .indexed x d => m.cell? ((m.regs.index x).displace d)

/-- The machine with an operand replaced. -/
def write? (o : Operand) (v : Byte) : Option Machine :=
  match o with
  | .reg r => m.setReg? r v
  | .high x => do
    let w ← (m.regs.index x).setHalf? 1 v
    return { m with regs := m.regs.setIndex x w }
  | .low x => do
    let w ← (m.regs.index x).setHalf? 0 v
    return { m with regs := m.regs.setIndex x w }
  | .hl => do
    let hl ← m.pair? (.bank .hl)
    m.store? hl v
  | .indexed x d => m.store? ((m.regs.index x).displace d) v

/-- The machine with a register replaced, if there is one to replace. -/
def copyTo? (r? : Option Reg8) (v : Byte) : Option Machine :=
  match r? with
  | some r => m.setReg? r v
  | none => some m

@[simp] theorem read?_eq (o : Operand) : m.read? o = some (m.read o) := by
  cases o with
  | hl =>
    rw [read?, pair?_eq, Option.bind_eq_bind, Option.bind_some, cell?_eq]
    rfl
  | _ => simp [read?, read]

@[simp] theorem write?_eq (o : Operand) (v : Byte) : m.write? o v = some (m.write o v) := by
  cases o with
  | reg r => exact m.setReg?_eq r v
  | high x =>
    rw [write?, Word.setHalf?_high]
    rfl
  | low x =>
    rw [write?, Word.setHalf?_low]
    rfl
  | hl =>
    rw [write?, pair?_eq, Option.bind_eq_bind, Option.bind_some, store?_eq]
    rfl
  | indexed x d => exact m.store?_eq _ v

@[simp] theorem copyTo?_eq (r? : Option Reg8) (v : Byte) :
    m.copyTo? r? v = some (m.copyTo r? v) := by
  cases r? with
  | some r => exact m.setReg?_eq r v
  | none => rfl

/-! ## The stack -/

/-- A word pushed. -/
def push? (w : Word) : Option Machine :=
  let sp := m.regs.sp - 2
  { m with regs := { m.regs with sp } }.storeWord? sp w

/-- The word on top of the stack. -/
def top? : Option Word :=
  m.mem.readWord? m.regs.sp

@[simp] theorem push?_eq (w : Word) : m.push? w = some (m.push w) :=
  storeWord?_eq _ _ w

@[simp] theorem top?_eq : m.top? = some m.top :=
  m.mem.readWord?_eq m.regs.sp

/-! ## The arithmetic unit -/

/-- An operation on the accumulator and a byte. -/
def alu? (op : AluOp) (v : Byte) : Option Machine := do
  let a ← m.reg? .a
  let carry := (← m.flags?).c
  match op with
  | .add => m.setAf? (addByte a v false) (← t.add? a v false)
  | .adc => m.setAf? (addByte a v carry) (← t.add? a v carry)
  | .sub => m.setAf? (subByte a v false) (← t.sub? a v false)
  | .sbc => m.setAf? (subByte a v carry) (← t.sub? a v carry)
  | .and => m.setAf? (a &&& v) (← t.and? a v)
  | .xor => m.setAf? (a ^^^ v) (← t.xor? a v)
  | .or => m.setAf? (a ||| v) (← t.or? a v)
  | .cp => m.setFlags? { ← t.sub? a v false with y := v.bit 5, x := v.bit 3 }

/-- INC and DEC of an operand that holds `v`: its new byte, and F but for the carry. -/
def replace? (dst : Operand) (v : Byte) (f : Flags) : Option Machine := do
  let carry := (← m.flags?).c
  let m ← m.write? dst v
  m.setFlags? { f with c := carry }

/-- A rotation or shift of an operand. -/
def rotate? (op : RotOp) (target : Operand) (copy : Option Reg8) : Option Machine := do
  let (result, carry) := op.apply (← m.read? target) (← m.flags?).c
  let m ← m.write? target result
  let m ← m.copyTo? copy result
  m.setFlags? { ← t.logical? result with c := carry }

/-- The accumulator and the cell at HL after a digit rotation. -/
def rotateDigits? (f : Byte → Byte → Byte × Byte) : Option Machine := do
  let hl ← m.pair? (.bank .hl)
  let (a, v) := f (← m.reg? .a) (← m.cell? hl)
  let carry := (← m.flags?).c
  let m ← m.store? hl v
  m.setAf? a { ← t.logical? a with c := carry }

/-- The accumulator loaded from I or R. -/
def loadSpecial? (v : Byte) : Option Machine := do
  let carry := (← m.flags?).c
  m.setAf? v { ← t.logical? v with pv := m.regs.iff2, c := carry }

/-- F after BIT, with the tested bit singled out. -/
def testBit? (n : Nat) (v source : Byte) : Option Machine := do
  let tested := v &&& (← mask? n)
  let carry := (← m.flags?).c
  m.setFlags? {
    s := n == 7 && tested != 0
    z := tested == 0
    y := source.bit 5
    h := true
    x := source.bit 3
    pv := tested == 0
    n := false
    c := carry }

variable {t}

theorem alu?_eq (h : t.Complete) (op : AluOp) (v : Byte) :
    m.alu? t op v = some (m.alu op v) := by
  cases op <;>
    simp only [alu?, reg?_eq, flags?_eq, h.add, h.sub, h.and, h.or, h.xor, setAf?_eq, setFlags?_eq,
      Option.bind_eq_bind, Option.bind_some] <;> rfl

theorem replace?_eq (dst : Operand) (v : Byte) (f : Flags) :
    m.replace? dst v f = some (m.replace dst v { f with c := m.flags.c }) := by
  simp only [replace?, flags?_eq, write?_eq, setFlags?_eq, Option.bind_eq_bind, Option.bind_some]
  rfl

theorem rotate?_eq (h : t.Complete) (op : RotOp) (target : Operand) (copy : Option Reg8) :
    m.rotate? t op target copy = some (m.rotate op target copy) := by
  simp only [rotate?, read?_eq, flags?_eq, write?_eq, copyTo?_eq, h.logical, setFlags?_eq,
    Option.bind_eq_bind, Option.bind_some]
  rfl

theorem rotateDigits?_eq (h : t.Complete) (f : Byte → Byte → Byte × Byte) :
    m.rotateDigits? t f = some (m.rotateDigits (f m.a (m.mem.get m.hl))) := by
  simp only [rotateDigits?, pair?_eq, reg?_eq, cell?_eq, flags?_eq, store?_eq, h.logical,
    setAf?_eq, Option.bind_eq_bind, Option.bind_some]
  rfl

theorem loadSpecial?_eq (h : t.Complete) (v : Byte) :
    m.loadSpecial? t v = some (m.setAf v (specialLoadFlags v m.regs.iff2 m.flags)) := by
  simp only [loadSpecial?, flags?_eq, h.logical, setAf?_eq, Option.bind_eq_bind, Option.bind_some]
  rfl

/-- Singling a bit out leaves zero exactly when the bit is clear. -/
theorem and_mask (v : Byte) (n : Fin 8) : (v &&& 1 <<< n.val.toUInt8 == 0) = !v.bit n := by
  revert v n
  simp only [Byte.forall_iff]
  decide +kernel

theorem testBit?_eq (n : Fin 8) (v source : Byte) :
    m.testBit? n v source = some (m.setFlags (bitFlags n v source m.flags)) := by
  have hseven : (n.val == 7) = (n == 7) := by
    revert n
    decide
  simp only [testBit?, mask?_eq, flags?_eq, setFlags?_eq, Option.bind_eq_bind, Option.bind_some,
    bne, and_mask, hseven, Bool.not_not]
  rfl

/-! ## Block instructions -/

variable (t) in
/-- One round of a block instruction: it reads what it needs and writes then. -/
def block? (op : BlockOp) (delta : Word) : Option Machine := do
  let hl ← m.pair? (.bank .hl)
  let bc ← m.pair? (.bank .bc)
  match op with
  | .load =>
    let de ← m.pair? (.bank .de)
    let v ← m.cell? hl
    let f := blockLoadFlags (← m.reg? .a) v (bc - 1) (← m.flags?)
    let m ← m.store? de v
    let m ← m.setPair? (.bank .hl) (hl + delta)
    let m ← m.setPair? (.bank .de) (de + delta)
    let m ← m.setPair? (.bank .bc) (bc - 1)
    m.setFlags? f
  | .compare =>
    let a ← m.reg? .a
    let v ← m.cell? hl
    let sub ← t.sub? a v false
    let n := a - v - sub.h.toUInt8
    let carry := (← m.flags?).c
    let m ← m.setPair? (.bank .hl) (hl + delta)
    let m ← m.setPair? (.bank .bc) (bc - 1)
    m.setFlags? { sub with y := Byte.bit n 1, x := Byte.bit n 3, pv := bc - 1 != 0, c := carry }
  | .input =>
    let b := (← m.reg? .b) - 1
    let v ← m.input? bc
    let f ← t.blockIo? b v ((← m.reg? .c) + delta.lo)
    let m ← m.store? hl v
    let m ← m.setPair? (.bank .hl) (hl + delta)
    let m ← m.setReg? .b b
    m.setFlags? f
  | .output =>
    let b := (← m.reg? .b) - 1
    let v ← m.cell? hl
    let f ← t.blockIo? b v (hl + delta).lo
    let m ← m.setReg? .b b
    let m ← m.output? (← m.pair? (.bank .bc)) v
    let m ← m.setPair? (.bank .hl) (hl + delta)
    m.setFlags? f

theorem block?_eq (h : t.Complete) (op : BlockOp) (dir : Direction) :
    m.block? t op dir.delta = some (m.block op dir) := by
  have hhl : m.pair (.bank .hl) = m.hl := rfl
  have hde : m.pair (.bank .de) = m.de := rfl
  have hbc : m.pair (.bank .bc) = m.bc := rfl
  have ha : m.reg .a = m.a := rfl
  have hport (b : Byte) : (m.setReg .b b).pair (.bank .bc) = Word.ofBytes b (m.reg .c) := rfl
  -- the two machines are compared field by field; unfolding one into the other takes long
  cases op with
  | load =>
    simp only [block?, pair?_eq, cell?_eq, store?_eq, setPair?_eq, reg?_eq, flags?_eq,
      setFlags?_eq, Option.bind_eq_bind, Option.bind_some, hhl, hde, hbc, ha]
    dsimp only [block, blockLoad, setPair, store, setFlags]
  | compare =>
    simp only [block?, pair?_eq, cell?_eq, setPair?_eq, reg?_eq, flags?_eq, h.sub, setFlags?_eq,
      Option.bind_eq_bind, Option.bind_some, hhl, hbc, ha]
    dsimp only [block, blockCompare, blockCompareFlags, setPair, setFlags]
  | input =>
    simp only [block?, pair?_eq, store?_eq, setPair?_eq, reg?_eq, input?_eq, setReg?_eq,
      h.blockIo, setFlags?_eq, Option.bind_eq_bind, Option.bind_some, hhl, hbc]
    dsimp only [block, blockInput, setPair, setFlags, setReg, store]
  | output =>
    simp only [block?, pair?_eq, cell?_eq, setPair?_eq, reg?_eq, output?_eq, setReg?_eq,
      h.blockIo, setFlags?_eq, Option.bind_eq_bind, Option.bind_some, hhl, hport]
    dsimp only [block, blockOutput, setPair, setFlags, setReg, output]

/-- Whether a block instruction has work left after its next round. -/
def blockContinues? : BlockOp → Option Bool
  | .load => do return (← m.pair? (.bank .bc)) - 1 != 0
  | .compare => do
    let v ← m.cell? (← m.pair? (.bank .hl))
    return (← m.pair? (.bank .bc)) - 1 != 0 && (← m.reg? .a) != v
  | .input | .output => do return (← m.reg? .b) - 1 != 0

theorem blockContinues?_eq (op : BlockOp) : m.blockContinues? op = some (m.blockContinues op) := by
  cases op <;>
    simp only [blockContinues?, pair?_eq, cell?_eq, reg?_eq, Option.bind_eq_bind,
      Option.bind_some] <;> rfl

end Machine

/-! ## Instructions -/

namespace Instr

variable (t : Tables) (m : Machine)

/-- Whether a condition, if there is one, holds of the flags. -/
def condHolds? (cc? : Option Cond) : Option Bool :=
  match cc? with
  | none => some true
  | some cc => do return cc.holds (← m.flags?)

/-- Whether the transfer of an instruction happens or its block repeats. -/
def taken? (i : Instr) : Option Bool :=
  match i with
  | jp cc? _ | jr cc? _ | call cc? _ | ret cc? => condHolds? m cc?
  | djnz _ => do return (← m.reg? .b) - 1 != 0
  | block op _ true => m.blockContinues? op
  | _ => some false

/-- The machine after a fetched instruction. -/
def effect? (i : Instr) (taken : Bool) : Option Machine := do
  match i with
  | nop => return m
  | ld dst src => m.write? dst (← m.read? src)
  | ldByte dst n => m.write? dst n
  | ldAFromPair rr => m.setReg? .a (← m.cell? (← m.pair? (.bank rr)))
  | ldAToPair rr => m.store? (← m.pair? (.bank rr)) (← m.reg? .a)
  | ldAFrom nn => m.setReg? .a (← m.cell? nn)
  | ldATo nn => m.store? nn (← m.reg? .a)
  | ldIA => return { m with regs := { m.regs with i := ← m.reg? .a } }
  | ldRA => return { m with regs := { m.regs with r := ← m.reg? .a } }
  | ldAI => m.loadSpecial? t m.regs.i
  | ldAR => m.loadSpecial? t m.regs.r
  | ldWord rr nn => m.setPair? rr nn
  | ldPairFrom rr nn => m.setPair? rr (← m.mem.readWord? nn)
  | ldPairTo rr nn => m.storeWord? nn (← m.pair? rr)
  | ldSp rr => m.setPair? .sp (← m.pair? rr)
  | push rr => m.push? (← m.pair? rr)
  | pop rr => m.drop.setPair? rr (← m.top?)
  | exDeHl =>
    let de ← m.pair? (.bank .de)
    let hl ← m.pair? (.bank .hl)
    let m ← m.setPair? (.bank .de) hl
    m.setPair? (.bank .hl) de
  | exAf => return { m with regs := ← m.regs.exchange? [slot .a, slot .f] }
  | exx => return { m with regs := ← m.regs.exchange? (List.range 6) }
  | exSp rr =>
    let w ← m.top?
    let m ← m.storeWord? m.regs.sp (← m.pair? rr)
    m.setPair? rr w
  | alu op src => m.alu? t op (← m.read? src)
  | aluByte op n => m.alu? t op n
  | inc dst =>
    let v ← m.read? dst
    m.replace? dst (v + 1) (← t.add? v 1 false)
  | dec dst =>
    let v ← m.read? dst
    m.replace? dst (v - 1) (← t.sub? v 1 false)
  | addPair dst src =>
    let (w, f) ← addWord? (← m.pair? dst) (← m.pair? src) (← m.flags?)
    let m ← m.setFlags? f
    m.setPair? dst w
  | adcHl src =>
    let (w, f) ← adcWord? (← m.pair? (.bank .hl)) (← m.pair? src) (← m.flags?).c
    let m ← m.setFlags? f
    m.setPair? (.bank .hl) w
  | sbcHl src =>
    let (w, f) ← sbcWord? (← m.pair? (.bank .hl)) (← m.pair? src) (← m.flags?).c
    let m ← m.setFlags? f
    m.setPair? (.bank .hl) w
  | incPair rr => m.setPair? rr ((← m.pair? rr) + 1)
  | decPair rr => m.setPair? rr ((← m.pair? rr) - 1)
  | daa =>
    let (a, f) ← t.daa? (← m.reg? .a) (← m.flags?)
    m.setPair? (.bank .af) (Word.ofBytes a f.toByte)
  | cpl =>
    let a := ~~~(← m.reg? .a)
    m.setAf? a { ← m.flags? with y := Byte.bit a 5, h := true, x := Byte.bit a 3, n := true }
  | neg =>
    let a ← m.reg? .a
    m.setAf? (subByte 0 a false) (← t.sub? 0 a false)
  | ccf =>
    let a ← m.reg? .a
    let f ← m.flags?
    m.setFlags? { f with y := a.bit 5, h := f.c, x := a.bit 3, n := false, c := !f.c }
  | scf =>
    let a ← m.reg? .a
    m.setFlags? { ← m.flags? with y := a.bit 5, h := false, x := a.bit 3, n := false, c := true }
  | rotA op =>
    let f ← m.flags?
    let (result, carry) := op.apply (← m.reg? .a) f.c
    m.setAf? result (RotOp.accumulatorFlags result carry f)
  | rot op target copy => m.rotate? t op target copy
  | rld => m.rotateDigits? t rotateDigitsLeft
  | rrd => m.rotateDigits? t rotateDigitsRight
  | bit n src =>
    let v ← m.read? src
    m.testBit? n v (((m.address? src).map Word.hi).getD v)
  | res n target copy =>
    let v := (← m.read? target) &&& ~~~(← mask? n)
    let m ← m.write? target v
    m.copyTo? copy v
  | set n target copy =>
    let v := (← m.read? target) ||| (← mask? n)
    let m ← m.write? target v
    m.copyTo? copy v
  | jp _ nn => return m.jumpIf taken nn
  | jpPair rr => return m.setPc (← m.pair? rr)
  | jr _ d => return m.jumpIf taken (m.pc.displace d)
  | djnz d =>
    let m ← m.setReg? .b ((← m.reg? .b) - 1)
    return m.jumpIf taken (m.pc.displace d)
  | call _ nn => if taken then return (← m.push? m.pc).setPc nn else return m
  | ret _ => if taken then return m.drop.setPc (← m.top?) else return m
  | retn => return { m.drop.setPc (← m.top?) with regs.iff1 := m.regs.iff2 }
  | rst target => return (← m.push? m.pc).setPc target.toUInt16
  | inA n =>
    let a ← m.reg? .a
    m.setReg? .a (← m.input? (Word.ofBytes a n))
  | outA n =>
    let a ← m.reg? .a
    m.output? (Word.ofBytes a n) a
  | inC r =>
    let carry := (← m.flags?).c
    let v ← m.input? (← m.pair? (.bank .bc))
    let m ← m.setReg? r v
    m.setFlags? { ← t.logical? v with c := carry }
  | outC r => m.output? (← m.pair? (.bank .bc)) (← m.reg? r)
  | block op dir _ => return (← m.block? t op dir.delta).jumpIf taken (m.pc - 2)
  | halt => return { m with halted := true }
  | di => return { m with regs := { m.regs with iff1 := false, iff2 := false } }
  | ei => return { m with regs := { m.regs with iff1 := true, iff2 := true } }
  | im mode => return { m with im := mode }
  | unimplemented _ => return m

variable {t}

theorem condHolds?_eq (cc? : Option Cond) : condHolds? m cc? = some (condHolds cc? m.flags) := by
  cases cc? with
  | none => rfl
  | some cc =>
    rw [condHolds?, Machine.flags?_eq]
    rfl

theorem taken?_eq (i : Instr) : i.taken? m = some (i.taken m) := by
  cases i with
  | djnz d =>
    rw [taken?, Machine.reg?_eq]
    rfl
  | block op dir repeats =>
    cases repeats with
    | false => rfl
    | true => exact m.blockContinues?_eq op
  | jp cc? nn => exact condHolds?_eq m cc?
  | jr cc? d => exact condHolds?_eq m cc?
  | call cc? nn => exact condHolds?_eq m cc?
  | ret cc? => exact condHolds?_eq m cc?
  | _ => rfl

/-- No part of an instruction fails. -/
theorem effect?_eq (h : t.Complete) (i : Instr) (taken : Bool) :
    i.effect? t m taken = some (i.effect taken m) := by
  cases i with
  | alu op src =>
    rw [effect?, Machine.read?_eq, Option.bind_eq_bind, Option.bind_some, m.alu?_eq h]
    rfl
  | aluByte op n => exact m.alu?_eq h op n
  | ldAI => exact m.loadSpecial?_eq h m.regs.i
  | ldAR => exact m.loadSpecial?_eq h m.regs.r
  | rot op target copy => exact m.rotate?_eq h op target copy
  | rld => exact m.rotateDigits?_eq h rotateDigitsLeft
  | rrd => exact m.rotateDigits?_eq h rotateDigitsRight
  | call cc? nn =>
    cases taken with
    | false => rfl
    | true =>
      rw [effect?, if_pos rfl, Machine.push?_eq]
      rfl
  | ret cc? =>
    cases taken with
    | false => rfl
    | true =>
      rw [effect?, if_pos rfl, Machine.top?_eq]
      rfl
  | daa =>
    simp only [effect?, Machine.reg?_eq, Machine.flags?_eq, h.daa, Machine.setPair?_eq,
      Option.bind_eq_bind, Option.bind_some]
    have ha : m.reg .a = m.a := rfl
    simp [effect, ha, Machine.setPair, Machine.setAf, Bank.setPair, Bank.set, Reg16.high, Reg16.low]
  | block op dir repeats =>
    rw [effect?, m.block?_eq h]
    rfl
  | _ =>
    simp only [effect?, Machine.reg?_eq, Machine.setReg?_eq, Machine.flags?_eq,
      Machine.setFlags?_eq, Machine.setAf?_eq, Machine.pair?_eq, Machine.setPair?_eq,
      Machine.cell?_eq, Machine.store?_eq, Machine.storeWord?_eq, Machine.input?_eq,
      Machine.output?_eq, Machine.read?_eq, Machine.write?_eq, Machine.copyTo?_eq,
      Machine.push?_eq, Machine.top?_eq, Machine.replace?_eq, Machine.testBit?_eq,
      Space.readWord?_eq, Registers.exchange?_af, Registers.exchange?_main, addWord?_eq,
      adcWord?_eq, sbcWord?_eq, mask?_eq, h.add, h.sub, h.logical, Option.bind_eq_bind,
      Option.bind_some]
    rfl

end Instr

end Z80
