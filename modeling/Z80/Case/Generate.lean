/-
  Z80.Case.Generate

  Making test cases from random bytes and words.  What is random is one value
  (`Draw`); the case is a function of the opcode and the draw.

  Every cell that an instruction without prefix may read is listed in the
  initial state: the instruction itself, the cells at BC, DE, HL and SP and the
  cells at the address in its operand.  The final state lists the same cells and
  all that changed.
-/

import Z80.Case.Basic
import Z80.Step
import Z80.Text.Hex

namespace Z80

/-- The random part of a case. -/
structure Draw where
  /-- The registers before the instruction. -/
  registers : CaseState
  /-- The three bytes after the opcode. -/
  operand₁ : Byte
  operand₂ : Byte
  operand₃ : Byte
  /-- The bytes for the cells at BC, DE, HL, SP, SP+1 and the operand address. -/
  atBc : Byte
  atDe : Byte
  atHl : Byte
  atSp : Byte
  aboveSp : Byte
  atOperand : Byte
  aboveOperand : Byte
  /-- The bytes for the port with A above the operand and the port at BC. -/
  portA : Byte
  portBc : Byte

namespace Draw

/-! ## The cells of a case -/

/-- The cells that an instruction may read, in order; an address may occur more
    than once. -/
def candidates (w : Draw) (opcode : Byte) : List (Word × Byte) :=
  let s := w.registers
  let bc := Word.ofBytes s.b s.c
  let de := Word.ofBytes s.d s.e
  let hl := Word.ofBytes s.h s.l
  let nn := Word.ofBytes w.operand₂ w.operand₁
  [(s.pc, opcode), (s.pc + 1, w.operand₁), (s.pc + 2, w.operand₂), (s.pc + 3, w.operand₃),
   (bc, w.atBc), (de, w.atDe), (hl, w.atHl), (s.sp, w.atSp), (s.sp + 1, w.aboveSp),
   (nn, w.atOperand), (nn + 1, w.aboveOperand)]

/-- The cells of a list, of several with one address only the first. -/
def firstOfEach (cells : List (Word × Byte)) : List (Word × Byte) :=
  cells.foldl (fun kept c => if kept.any (·.1 == c.1) then kept else kept ++ [c]) []

/-- The initial state of a case. -/
def initial (w : Draw) (opcode : Byte) : CaseState :=
  { w.registers with ram := firstOfEach (w.candidates opcode) }

/-- The two ports that an instruction may read, with their bytes. -/
def portCells (w : Draw) : List (Word × Byte) :=
  [(Word.ofBytes w.registers.a w.operand₁, w.portA),
   (Word.ofBytes w.registers.b w.registers.c, w.portBc)]

end Draw

/-! ## Cases -/

namespace Case

/-- Whether an opcode is an instruction by itself and not a prefix. -/
def supported (opcode : Byte) : Bool :=
  opcode != 0xCB && opcode != 0xDD && opcode != 0xED && opcode != 0xFD

/-- The bus cycle that stands for any T-state, as the bus is not traced. -/
def untraced : BusCycle :=
  ⟨none, none, "----"⟩

/-- Four bytes in hexadecimal with blanks between them. -/
def bytesName (bs : List Byte) : String :=
  String.intercalate " " (bs.map fun b => Hex.lower 2 b.toNat)

/-- The machine before the instruction of a draw. -/
def prepared (opcode : Byte) (w : Draw) : Machine :=
  let m := (Machine.initial {}).apply (w.initial opcode)
  { m with ports := m.ports.write w.portCells }

/-- The case of an opcode and a draw. -/
def generate (opcode : Byte) (w : Draw) : Case :=
  let initial := w.initial opcode
  let before := prepared opcode w
  let after := before.step
  let seeded := initial.ram.map Prod.fst
  let listed := Space.addressesWhere fun a =>
    seeded.contains a || before.mem.get a != after.mem.get a
  { name := bytesName (before.mem.slice initial.pc 4)
    initial
    final := { CaseState.ofMachine after with ram := listed.map fun a => (a, after.mem.get a) }
    cycles := List.replicate after.cycles untraced
    ports := w.portCells.map (fun (a, v) => ⟨a, v, "r"⟩) ++
      (Space.changed before.ports after.ports).map fun a => ⟨a, after.ports.get a, "w"⟩ }

end Case

end Z80
