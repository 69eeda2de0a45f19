/-
  Z80.Proofs.ControlFlow

  Where the machine goes on after an instruction.

  The sizes of the instructions and the opcodes that leave the straight line are
  listed here by page, as an instruction set is printed, and not computed from
  the decoder.  The main statement is `pc_step`: the program counter after one
  step is the one that the lists give, for every machine that is not halted.
-/

import Z80.Proofs.Encoding
import Z80.Proofs.Machine

namespace Z80

/-! ## Sizes -/

namespace Page

/-- The number of bytes of the instructions without a prefix, sixteen to a row. -/
def sizes : List (List Nat) :=
  [[1, 3, 1, 1, 1, 1, 2, 1, 1, 1, 1, 1, 1, 1, 2, 1],
   [2, 3, 1, 1, 1, 1, 2, 1, 2, 1, 1, 1, 1, 1, 2, 1],
   [2, 3, 3, 1, 1, 1, 2, 1, 2, 1, 3, 1, 1, 1, 2, 1],
   [2, 3, 3, 1, 1, 1, 2, 1, 2, 1, 3, 1, 1, 1, 2, 1],
   [1, 1, 1, 1, 1, 1, 1, 1, 1, 1, 1, 1, 1, 1, 1, 1],
   [1, 1, 1, 1, 1, 1, 1, 1, 1, 1, 1, 1, 1, 1, 1, 1],
   [1, 1, 1, 1, 1, 1, 1, 1, 1, 1, 1, 1, 1, 1, 1, 1],
   [1, 1, 1, 1, 1, 1, 1, 1, 1, 1, 1, 1, 1, 1, 1, 1],
   [1, 1, 1, 1, 1, 1, 1, 1, 1, 1, 1, 1, 1, 1, 1, 1],
   [1, 1, 1, 1, 1, 1, 1, 1, 1, 1, 1, 1, 1, 1, 1, 1],
   [1, 1, 1, 1, 1, 1, 1, 1, 1, 1, 1, 1, 1, 1, 1, 1],
   [1, 1, 1, 1, 1, 1, 1, 1, 1, 1, 1, 1, 1, 1, 1, 1],
   -- CB, DD, ED and FD are no instructions of this page
   [1, 1, 3, 3, 3, 1, 2, 1, 1, 1, 3, 1, 3, 3, 2, 1],
   [1, 1, 3, 2, 3, 1, 2, 1, 1, 1, 3, 2, 3, 1, 2, 1],
   [1, 1, 3, 1, 3, 1, 2, 1, 1, 1, 3, 1, 3, 1, 2, 1],
   [1, 1, 3, 1, 3, 1, 2, 1, 1, 1, 3, 1, 3, 1, 2, 1]]

/-- The number of bytes of an instruction without a prefix. -/
def plainSize (op : Byte) : Nat :=
  (sizes.getD (op.toNat / 16) []).getD (op.toNat % 16) 1

/-- Whether an operand of a main-page instruction is the cell at HL, or behind DD
    and FD the cell at a displacement from the index register: INC, DEC and LD
    with an immediate byte, the loads with a field 6 and the operations of the
    accumulator with low field 6. -/
def hasCell (op : Byte) : Bool :=
  op == 0x34 || op == 0x35 || op == 0x36 ||
  (op &&& 0xC0 == 0x40 && op != 0x76 && (op &&& 0x38 == 0x30 || op &&& 0x07 == 0x06)) ||
  op &&& 0xC7 == 0x86

/-- The number of bytes of an instruction, prefixes included. -/
def size (p : Page) (op : Byte) : Nat :=
  match p with
  | main none => plainSize op
  | main (some _) => 1 + plainSize op + if hasCell op then 1 else 0
  | cb => 2
  | indexCb _ => 4
  -- LD (nn),rr and LD rr,(nn)
  | ed => if op &&& 0xC7 == 0x43 then 4 else 2
  | idle => 1

end Page

/-! ## Ways to leave the straight line -/

/-- How an instruction goes on. -/
inductive Flow where
  /-- At the next instruction. -/
  | next
  /-- At an immediate address, if the condition holds. -/
  | jump (cc? : Option Cond)
  /-- At a displacement from the next instruction, if the condition holds. -/
  | relative (cc? : Option Cond)
  /-- At a displacement from the next instruction, until B is counted down. -/
  | countdown
  /-- At an immediate address, the next one pushed, if the condition holds. -/
  | call (cc? : Option Cond)
  /-- At a fixed address, the next one pushed. -/
  | restart (target : Byte)
  /-- At the word on top of the stack, if the condition holds. -/
  | ret (cc? : Option Cond)
  /-- At the word in a register. -/
  | register (rr : Pair)
  /-- At the instruction itself, until its block is done. -/
  | again (op : BlockOp)
  deriving DecidableEq, Repr

/-- How an opcode goes on. -/
def Page.flow (p : Page) (op : Byte) : Flow :=
  match p with
  | .main x? =>
    match op with
    | 0x10 => .countdown
    | 0x18 => .relative none
    | 0x20 => .relative (some .nz)
    | 0x28 => .relative (some .z)
    | 0x30 => .relative (some .nc)
    | 0x38 => .relative (some .c)
    | 0xC3 => .jump none
    | 0xC9 => .ret none
    | 0xCD => .call none
    | 0xE9 => .register (.hlOr x?)
    | _ =>
      match op &&& 0xC7 with
      | 0xC0 => .ret (some (condition op))
      | 0xC2 => .jump (some (condition op))
      | 0xC4 => .call (some (condition op))
      | 0xC7 => .restart (op &&& 0x38)
      | _ => .next
  | .ed =>
    match op with
    | 0x45 | 0x4D => .ret none
    | 0xB0 | 0xB8 => .again .load
    | 0xB1 | 0xB9 => .again .compare
    | 0xB2 | 0xBA => .again .input
    | 0xB3 | 0xBB => .again .output
    | _ => .next
  | _ => .next

/-- Whether a repeating block instruction is not in its last round: its counter
    does not reach zero, and a search does not meet the accumulator. -/
def Machine.repeats (m : Machine) : BlockOp → Bool
  | .load => m.bc != 1
  | .compare => m.bc != 1 && m.a != m.mem.get m.hl
  | .input => m.reg .b != 1
  | .output => m.reg .b != 1

namespace Flow

/-- The address at which an instruction at `start` goes on, with `next` the
    address behind it and `n₁` and `n₂` the bytes behind its opcode. -/
def target (f : Flow) (m : Machine) (start next : Word) (n₁ n₂ : Byte) : Word :=
  match f with
  | .next => next
  | jump cc? => if Instr.condHolds cc? m.flags then Word.ofBytes n₂ n₁ else next
  | relative cc? => if Instr.condHolds cc? m.flags then next.displace n₁.toInt8 else next
  | countdown => if m.reg .b != 1 then next.displace n₁.toInt8 else next
  | call cc? => if Instr.condHolds cc? m.flags then Word.ofBytes n₂ n₁ else next
  | restart p => p.toUInt16
  | ret cc? => if Instr.condHolds cc? m.flags then m.mem.getWord m.regs.sp else next
  | register rr => m.pair rr
  | again op => if m.repeats op then start else next

/-- Whether an instruction pushes the address behind it as it leaves. -/
def calls (f : Flow) (m : Machine) : Bool :=
  match f with
  | call cc? => Instr.condHolds cc? m.flags
  | restart _ => true
  | _ => false

end Flow

/-! ## Instructions -/

/-- How an instruction goes on, whatever its operands are. -/
def Instr.flow : Instr → Flow
  | jp cc? _ => .jump cc?
  | jpPair rr => .register rr
  | jr cc? _ => .relative cc?
  | djnz _ => .countdown
  | call cc? _ => .call cc?
  | rst target => .restart target
  | ret cc? => .ret cc?
  | retn => .ret none
  | block op _ repeats => if repeats then .again op else .next
  | _ => .next

/-- The decoder has the listed sizes and branches. -/
theorem Page.template_flow (p : Page) (op : Byte) :
    (p.template op).size = p.size op ∧ (p.template op).instr.flow = p.flow op := by
  revert p op
  exact forall_opcode (by decide +kernel)

theorem Byte.sub_one_bne_zero (b : Byte) : (b - 1 != 0) = (b != 1) := by
  rw [Bool.eq_iff_iff, bne_iff_ne, bne_iff_ne, ne_eq, UInt8.sub_eq_iff_eq_add, UInt8.zero_add]

theorem Word.sub_one_bne_zero (w : Word) : (w - 1 != 0) = (w != 1) := by
  rw [Bool.eq_iff_iff, bne_iff_ne, bne_iff_ne, ne_eq, UInt16.sub_eq_iff_eq_add, UInt16.zero_add]

namespace Machine

theorem blockContinues_eq_repeats (m : Machine) (op : BlockOp) :
    m.blockContinues op = m.repeats op := by
  cases op <;>
    simp only [blockContinues, repeats, Byte.sub_one_bne_zero, Word.sub_one_bne_zero]

/-- A block instruction that goes on stands before its two bytes again. -/
theorem pc_effect_block (m : Machine) (op : BlockOp) (dir : Direction) (repeats : Bool)
    (n₁ n₂ : Byte) :
    ((m.block op dir).jumpIf (repeats && m.blockContinues op) (m.pc - 2)).pc =
      (Instr.block op dir repeats).flow.target m (m.pc - 2) m.pc n₁ n₂ := by
  have hpc : (m.block op dir).regs.pc = m.pc := pc_block m op dir
  refine (pc_jumpIf _ _ _).trans ?_
  rw [hpc]
  cases repeats with
  | false => rfl
  | true =>
    rw [Bool.true_and, blockContinues_eq_repeats]
    rfl

/-- What an instruction does to the program counter, on the machine that has
    fetched it. -/
theorem pc_effect (m : Machine) (i : Instr) (n₁ n₂ : Byte) :
    ((i.withBytes n₁ n₂).effect ((i.withBytes n₁ n₂).taken m) m).pc =
      i.flow.target m (m.pc - 2) m.pc n₁ n₂ := by
  cases i
  case jp cc? nn => exact pc_jumpIf m _ _
  case jr cc? d => exact pc_jumpIf m _ _
  case djnz d =>
    have hcount : ((Instr.djnz d).withBytes n₁ n₂).taken m = (m.reg .b != 1) :=
      Byte.sub_one_bne_zero _
    refine (pc_jumpIf _ _ _).trans ?_
    rw [hcount]
    rfl
  case call cc? nn => exact pc_callIf m _ _
  case ret cc? => exact pc_returnIf m _
  case retn => rfl
  case rst target => rfl
  case jpPair rr => rfl
  case block op dir repeats => exact pc_effect_block m op dir repeats n₁ n₂
  case unimplemented opcode => cases opcode <;> rfl
  -- the others do not touch the program counter
  all_goals
    show (Instr.effect _ _ m).regs.pc = m.regs.pc
    simp [Instr.withBytes, Instr.effect, Registers.exchangeAf, Registers.exchangeMain]

/-- What CALL and RST leave on the stack, on the machine that has fetched them. -/
theorem top_effect (m : Machine) (i : Instr) (n₁ n₂ : Byte) (hcalls : i.flow.calls m = true) :
    let after := (i.withBytes n₁ n₂).effect ((i.withBytes n₁ n₂).taken m) m
    after.regs.sp = m.regs.sp - 2 ∧ after.top = m.pc := by
  have hpush (w : Word) : (m.push w).top = w := Space.getWord_setWord _ _ _
  cases i
  case call cc? nn =>
    have htaken : ((Instr.call cc? nn).withBytes n₁ n₂).taken m = true := hcalls
    dsimp only
    rw [htaken]
    exact ⟨rfl, hpush m.pc⟩
  case rst target => exact ⟨rfl, hpush m.pc⟩
  case block op dir repeats => cases repeats <;> cases hcalls
  all_goals cases hcalls

end Machine

/-! ## One step -/

/-- Only instructions of two bytes run again. -/
theorem Page.size_of_again {p : Page} {op : Byte} {b : BlockOp} (h : p.flow op = .again b) :
    p.size op = 2 := by
  cases p with
  | main x? =>
    simp only [flow] at h
    split at h <;> (try cases h)
    split at h <;> cases h
  | ed =>
    simp only [flow] at h
    split at h <;> first | rfl | cases h
  | cb => cases h
  | indexCb x => cases h
  | idle => cases h

namespace Encoding

/-- The number of bytes of an encoding. -/
def size (e : Encoding) : Nat :=
  e.page.size e.op

/-- How an encoded instruction goes on. -/
def flow (e : Encoding) : Flow :=
  e.page.flow e.op

end Encoding

namespace Machine

/-- The address behind the instruction at the program counter. -/
def behind (m : Machine) : Word :=
  m.pc + m.encoding.size.toUInt16

/-- The address at which the machine goes on after the instruction at the program
    counter. -/
def nextPc (m : Machine) : Word :=
  m.encoding.flow.target m m.pc m.behind m.encoding.n₁ m.encoding.n₂

theorem target_fetch (m : Machine) (d : Decoded) (f : Flow) (start next : Word) (n₁ n₂ : Byte) :
    f.target (m.fetch d) start next n₁ n₂ = f.target m start next n₁ n₂ := by
  cases f with
  | again op => cases op <;> rfl
  | register rr =>
    cases rr with
    | index x => cases x <;> rfl
    | _ => rfl
  | _ => rfl

theorem calls_fetch (m : Machine) (d : Decoded) (f : Flow) :
    f.calls (m.fetch d) = f.calls m := by
  cases f <;> rfl

/-- The program counter after one step is the one that the sizes and branches of
    the opcode pages give, and CALL and RST leave the address behind them on top
    of the stack. -/
theorem pc_step (m : Machine) (h : m.halted = false) :
    m.step.pc = m.nextPc ∧
      (m.encoding.flow.calls m = true →
        m.step.regs.sp = m.regs.sp - 2 ∧ m.step.top = m.behind) := by
  obtain ⟨hsize, hflow⟩ := Page.template_flow m.encoding.page m.encoding.op
  have hpc : m.fetched.pc = m.behind := by
    rw [behind, Encoding.size, ← hsize]
    rfl
  have hflow' : m.template.instr.flow = m.encoding.flow := hflow
  rw [step_eq_effect h]
  constructor
  · refine (pc_effect m.fetched m.template.instr m.encoding.n₁ m.encoding.n₂).trans ?_
    rw [hflow', hpc, fetched, target_fetch, nextPc]
    -- the start matters to instructions that run again only
    cases hagain : m.encoding.flow with
    | again b =>
      have htwo : m.encoding.size = 2 := Page.size_of_again hagain
      rw [behind, htwo, show m.pc + (2 : Nat).toUInt16 - 2 = m.pc from UInt16.add_sub_cancel ..]
    | _ => rfl
  · intro hcalls
    have hcalls' : m.template.instr.flow.calls m.fetched = true := by
      rw [hflow', fetched, calls_fetch, hcalls]
    obtain ⟨hsp, htop⟩ :=
      top_effect m.fetched m.template.instr m.encoding.n₁ m.encoding.n₂ hcalls'
    exact ⟨hsp, htop.trans hpc⟩

/-- A CALL whose bytes pass the top of memory and whose stack lies over them. -/
theorem pc_step_atCode_call :
    (atCode 0xFFFE [0xCD, 0x34, 0x12]).halted = false ∧
      (atCode 0xFFFE [0xCD, 0x34, 0x12]).step.pc = 0x1234 ∧
      (atCode 0xFFFE [0xCD, 0x34, 0x12]).step.top = 1 := by
  have hcode : (atCode 0xFFFE [0xCD, 0x34, 0x12]).encoding = ⟨.main none, 0xCD, 0x34, 0x12⟩ := by
    simp [atCode, encoding, pc, Space.load, Space.get_set, Encoding.ofBytes, Index.code]
  obtain ⟨hpc, hcall⟩ := pc_step (atCode 0xFFFE [0xCD, 0x34, 0x12]) rfl
  refine ⟨rfl, hpc.trans ?_, (hcall ?_).2.trans ?_⟩
  · rw [nextPc, hcode]
    rfl
  · rw [hcode]
    rfl
  · rw [behind, hcode]
    decide

end Machine

end Z80
