/-
  Z80.Proofs.WriteFrame

  What a step can write.

  The instructions that store are listed by page with the cells they store to,
  and those that output with their port; all addresses are those before the
  instruction.  The main statement is `tryStep_frame`: every other cell of memory
  and every other port keeps its byte.
-/

import Z80.Proofs.Encoding
import Z80.Proofs.Machine

namespace Z80

/-! ## Destinations -/

/-- The memory cells that an instruction stores to. -/
inductive Destination where
  | none
  /-- The cell at HL, or at a displacement from an index register. -/
  | cell (x? : Option Index)
  /-- The cell at a register pair. -/
  | pair (rr : Reg16)
  /-- The cell at an immediate address. -/
  | direct
  /-- The two cells from an immediate address on. -/
  | directWord
  /-- The two cells on top of the stack. -/
  | stackTop
  /-- The two cells below the stack, if the condition holds. -/
  | belowStack (cc? : Option Cond)
  deriving DecidableEq, Repr

/-- The port that an instruction writes. -/
inductive PortDestination where
  | none
  /-- A in the high byte and an immediate low byte. -/
  | immediate
  /-- BC. -/
  | bc
  /-- BC when B has been counted down. -/
  | counted
  deriving DecidableEq, Repr

/-- The addresses of a destination; `n₁` and `n₂` stand behind the opcode. -/
def Destination.cells (d : Destination) (m : Machine) (n₁ n₂ : Byte) : List Word :=
  match d with
  | none => []
  | cell .none => [m.hl]
  | cell (some x) => [(m.regs.index x).displace n₁.toInt8]
  | pair rr => [m.pair (.bank rr)]
  | direct => [Word.ofBytes n₂ n₁]
  | directWord => [Word.ofBytes n₂ n₁, Word.ofBytes n₂ n₁ + 1]
  | stackTop => [m.regs.sp, m.regs.sp + 1]
  | belowStack cc? =>
    if Instr.condHolds cc? m.flags then [m.regs.sp - 2, m.regs.sp - 1] else []

/-- The number of the port, if any. -/
def PortDestination.cells (d : PortDestination) (m : Machine) (n₁ : Byte) : List Word :=
  match d with
  | none => []
  | immediate => [Word.ofBytes m.a n₁]
  | bc => [m.bc]
  | counted => [Word.ofBytes (m.reg .b - 1) (m.reg .c)]

namespace Page

/-- Where an opcode stores to. -/
def destination (p : Page) (op : Byte) : Destination :=
  match p with
  | main x? =>
    match op with
    -- LD (BC),A and LD (DE),A
    | 0x02 => .pair .bc
    | 0x12 => .pair .de
    -- LD (nn),HL and LD (nn),A
    | 0x22 => .directWord
    | 0x32 => .direct
    -- INC, DEC and LD with an immediate byte
    | 0x34 | 0x35 | 0x36 => .cell x?
    | 0x76 => .none
    | 0xCD => .belowStack none
    -- EX (SP),HL
    | 0xE3 => .stackTop
    | _ =>
      -- LD (HL),r
      if op &&& 0xF8 = 0x70 then .cell x?
      else if op &&& 0xCF = 0xC5 then .belowStack none
      else if op &&& 0xC7 = 0xC4 then .belowStack (some (condition op))
      else if op &&& 0xC7 = 0xC7 then .belowStack none
      else .none
  -- a test stores nothing, and 30 to 37 have no instruction
  | cb =>
    if op &&& 0x07 = 0x06 ∧ op &&& 0xC0 ≠ 0x40 ∧ op &&& 0xF8 ≠ 0x30 then .cell none else .none
  | indexCb x =>
    if op &&& 0xC0 ≠ 0x40 ∧ op &&& 0xF8 ≠ 0x30 then .cell (some x) else .none
  | ed =>
    match op with
    -- LD (nn),rr
    | 0x43 | 0x53 | 0x63 | 0x73 => .directWord
    -- RRD and RLD
    | 0x67 | 0x6F => .cell none
    -- LDI, LDD, LDIR and LDDR
    | 0xA0 | 0xA8 | 0xB0 | 0xB8 => .pair .de
    -- INI, IND, INIR and INDR
    | 0xA2 | 0xAA | 0xB2 | 0xBA => .cell none
    | _ => .none
  | idle => .none

/-- Where an opcode outputs to. -/
def portDestination (p : Page) (op : Byte) : PortDestination :=
  match p with
  | main _ => if op = 0xD3 then .immediate else .none
  | ed =>
    match op with
    -- OUT (C),r
    | 0x41 | 0x49 | 0x51 | 0x59 | 0x61 | 0x69 | 0x79 => .bc
    -- OUTI, OUTD, OTIR and OTDR
    | 0xA3 | 0xAB | 0xB3 | 0xBB => .counted
    | _ => .none
  | _ => .none

end Page

/-- No opcode both stores and outputs. -/
theorem Page.destination_eq_none_or (p : Page) (op : Byte) :
    p.destination op = .none ∨ p.portDestination op = .none := by
  cases p with
  | main x? =>
    by_cases hout : op = 0xD3
    · subst hout
      exact .inl rfl
    · exact .inr (if_neg hout)
  | ed =>
    cases hout : Page.ed.portDestination op with
    | none => exact .inr rfl
    | _ =>
      left
      simp only [portDestination] at hout
      split at hout <;> first | rfl | cases hout
  | _ => exact .inr rfl

/-- A destination is at most two adjacent cells. -/
theorem Destination.exists_cells (d : Destination) (m : Machine) (n₁ n₂ : Byte) :
    ∃ a, ∀ b ∈ d.cells m n₁ n₂, b = a ∨ b = a + 1 := by
  have hpair (a : Word) : ∀ b ∈ [a, a + 1], b = a ∨ b = a + 1 := by simp
  have hone (a : Word) : ∀ b ∈ [a], b = a ∨ b = a + 1 := by simp
  cases d with
  | none => exact ⟨0, by simp [cells]⟩
  | cell x? => cases x? <;> exact ⟨_, hone _⟩
  | pair rr => exact ⟨_, hone _⟩
  | direct => exact ⟨_, hone _⟩
  | directWord => exact ⟨_, hpair _⟩
  | stackTop => exact ⟨_, hpair _⟩
  | belowStack cc? =>
    have hnext : m.regs.sp - 1 = m.regs.sp - 2 + 1 := by grind
    refine ⟨m.regs.sp - 2, ?_⟩
    dsimp only [cells]
    rw [hnext]
    split
    · exact hpair _
    · simp

theorem PortDestination.exists_cells (d : PortDestination) (m : Machine) (n₁ : Byte) :
    ∃ p, ∀ q ∈ d.cells m n₁, q = p := by
  cases d with
  | none => exact ⟨0, by simp [cells]⟩
  | immediate => exact ⟨_, fun _ => List.mem_singleton.mp⟩
  | bc => exact ⟨_, fun _ => List.mem_singleton.mp⟩
  | counted => exact ⟨_, fun _ => List.mem_singleton.mp⟩

/-! ## Instructions -/

/-- Where a write to an operand stores to. -/
def Operand.destination : Operand → Destination
  | hl => .cell none
  | indexed x _ => .cell (some x)
  | _ => .none

namespace Instr

/-- Where an instruction stores to. -/
def destination : Instr → Destination
  | ld dst _ | ldByte dst _ | inc dst | dec dst => dst.destination
  | rot _ target _ | res _ target _ | set _ target _ => target.destination
  | ldAToPair rr => .pair rr
  | ldATo _ => .direct
  | ldPairTo _ _ => .directWord
  | exSp _ => .stackTop
  | push _ | rst _ => .belowStack none
  | call cc? _ => .belowStack cc?
  | rld | rrd | block .input _ _ => .cell none
  | block .load _ _ => .pair .de
  | _ => .none

/-- Where an instruction outputs to. -/
def portDestination : Instr → PortDestination
  | outA _ => .immediate
  | outC _ => .bc
  | block .output _ _ => .counted
  | _ => .none

end Instr

/-- The decoder has the listed destinations. -/
theorem Page.template_destination (p : Page) (op : Byte) :
    (p.template op).instr.destination = p.destination op ∧
      (p.template op).instr.portDestination = p.portDestination op := by
  revert p op
  exact forall_opcode (by decide +kernel)

namespace Machine

/-- A write to an operand stores to its cell. -/
theorem sameOutside_write (m : Machine) (o : Operand) (n₁ n₂ v : Byte) :
    m.mem.SameOutside (o.destination.cells m n₁ n₂)
      (m.write (o.withDisp n₁.toInt8) v).mem := by
  cases o with
  | reg r => exact Space.sameOutside_of_eq rfl
  | high x => exact Space.sameOutside_of_eq rfl
  | low x => exact Space.sameOutside_of_eq rfl
  | hl => exact Space.sameOutside_set _ _ _
  | indexed x d => exact Space.sameOutside_set _ _ _

/-- A push stores to the two cells below the stack. -/
theorem sameOutside_push (m : Machine) (w : Word) :
    m.mem.SameOutside [m.regs.sp - 2, m.regs.sp - 1] (m.push w).mem := by
  have hnext : m.regs.sp - 1 = m.regs.sp - 2 + 1 := by grind
  rw [hnext]
  exact Space.sameOutside_setWord _ _ _

/-- An instruction stores to its destination only, on the machine that has
    fetched it. -/
theorem mem_effect (m : Machine) (i : Instr) (n₁ n₂ : Byte) :
    m.mem.SameOutside (i.destination.cells m n₁ n₂)
      ((i.withBytes n₁ n₂).effect ((i.withBytes n₁ n₂).taken m) m).mem := by
  cases i
  case ld dst src => exact sameOutside_write m dst n₁ n₂ _
  case ldByte dst n => exact sameOutside_write m dst n₁ n₂ _
  case inc dst => exact sameOutside_write m dst n₁ n₂ _
  case dec dst => exact sameOutside_write m dst n₁ n₂ _
  case rot op target copy =>
    show m.mem.SameOutside _ (m.rotate op (target.withDisp n₁.toInt8) copy).mem
    rw [mem_rotate]
    exact sameOutside_write m target n₁ n₂ _
  case res n target copy =>
    show m.mem.SameOutside _ ((m.write (target.withDisp n₁.toInt8) _).copyTo copy _).mem
    rw [mem_copyTo]
    exact sameOutside_write m target n₁ n₂ _
  case set n target copy =>
    show m.mem.SameOutside _ ((m.write (target.withDisp n₁.toInt8) _).copyTo copy _).mem
    rw [mem_copyTo]
    exact sameOutside_write m target n₁ n₂ _
  case ldAToPair rr => exact Space.sameOutside_set _ _ _
  case ldATo nn => exact Space.sameOutside_set _ _ _
  case ldPairTo rr nn => exact Space.sameOutside_setWord _ _ _
  case exSp rr =>
    show m.mem.SameOutside _ ((m.storeWord m.regs.sp (m.pair rr)).setPair rr m.top).mem
    rw [mem_setPair]
    exact Space.sameOutside_setWord _ _ _
  case push rr => exact sameOutside_push m _
  case rst target => exact sameOutside_push m _
  case call cc? nn =>
    dsimp only [Instr.destination, Destination.cells, Instr.withBytes, Instr.effect, Instr.taken]
    cases Instr.condHolds cc? m.flags with
    | false => exact Space.sameOutside_of_eq rfl
    | true => exact sameOutside_push m m.pc
  case rld => exact Space.sameOutside_set _ _ _
  case rrd => exact Space.sameOutside_set _ _ _
  case block op dir repeats =>
    show m.mem.SameOutside _ ((m.block op dir).jumpIf _ _).mem
    rw [mem_jumpIf]
    cases op with
    | load => exact Space.sameOutside_set _ _ _
    | compare => exact Space.sameOutside_of_eq rfl
    | input => exact Space.sameOutside_set _ _ _
    | output => exact Space.sameOutside_of_eq rfl
  case unimplemented opcode => cases opcode <;> exact Space.sameOutside_of_eq rfl
  -- the others store nothing
  all_goals
    apply Space.sameOutside_of_eq
    simp [Instr.withBytes, Instr.effect]

/-- An instruction outputs to its port only, on the machine that has fetched it. -/
theorem ports_effect (m : Machine) (i : Instr) (n₁ n₂ : Byte) :
    m.ports.SameOutside (i.portDestination.cells m n₁)
      ((i.withBytes n₁ n₂).effect ((i.withBytes n₁ n₂).taken m) m).ports := by
  cases i
  case outA n => exact Space.sameOutside_set _ _ _
  case outC r => exact Space.sameOutside_set _ _ _
  case block op dir repeats =>
    show m.ports.SameOutside _ ((m.block op dir).jumpIf _ _).ports
    rw [ports_jumpIf]
    cases op with
    | output => exact Space.sameOutside_set _ _ _
    | _ => exact Space.sameOutside_of_eq rfl
  case unimplemented opcode => cases opcode <;> exact Space.sameOutside_of_eq rfl
  -- the others output nothing
  all_goals
    apply Space.sameOutside_of_eq
    simp [Instr.withBytes, Instr.effect]

/-! ## One step -/

/-- The memory cells that the next step may write. -/
def storeCells (m : Machine) : List Word :=
  if m.halted then []
  else (m.encoding.page.destination m.encoding.op).cells m m.encoding.n₁ m.encoding.n₂

/-- The port that the next step may write. -/
def outputCells (m : Machine) : List Word :=
  if m.halted then []
  else (m.encoding.page.portDestination m.encoding.op).cells m m.encoding.n₁

theorem storeCells_eq_nil_or (m : Machine) : m.storeCells = [] ∨ m.outputCells = [] := by
  unfold storeCells outputCells
  cases m.halted with
  | true => exact .inl rfl
  | false =>
    obtain hnone | hnone := Page.destination_eq_none_or m.encoding.page m.encoding.op
    · exact .inl (by rw [hnone]; rfl)
    · exact .inr (by rw [hnone]; rfl)

theorem exists_storeCells (m : Machine) : ∃ a, ∀ b ∈ m.storeCells, b = a ∨ b = a + 1 := by
  unfold storeCells
  cases m.halted with
  | true => exact ⟨0, by simp⟩
  | false => exact Destination.exists_cells _ _ _ _

theorem exists_outputCells (m : Machine) : ∃ p, ∀ q ∈ m.outputCells, q = p := by
  unfold outputCells
  cases m.halted with
  | true => exact ⟨0, by simp⟩
  | false => exact PortDestination.exists_cells _ _ _

theorem cells_fetch (m : Machine) (d : Decoded) (dest : Destination) (n₁ n₂ : Byte) :
    dest.cells (m.fetch d) n₁ n₂ = dest.cells m n₁ n₂ := by
  cases dest with
  | cell x? =>
    cases x? with
    | none => rfl
    | some x => cases x <;> rfl
  | _ => rfl

theorem portCells_fetch (m : Machine) (d : Decoded) (dest : PortDestination) (n₁ : Byte) :
    dest.cells (m.fetch d) n₁ = dest.cells m n₁ := by
  cases dest <;> rfl

theorem mem_step (m : Machine) : m.mem.SameOutside m.storeCells m.step.mem := by
  cases h : m.halted with
  | true => exact Space.sameOutside_of_eq (by rw [step_of_halted h]; rfl)
  | false =>
    have hdest : m.template.instr.destination = m.encoding.page.destination m.encoding.op :=
      (Page.template_destination _ _).1
    rw [step_eq_effect h, storeCells, h, if_neg Bool.false_ne_true, ← hdest,
      ← cells_fetch m m.template]
    exact mem_effect m.fetched m.template.instr m.encoding.n₁ m.encoding.n₂

theorem ports_step (m : Machine) : m.ports.SameOutside m.outputCells m.step.ports := by
  cases h : m.halted with
  | true => exact Space.sameOutside_of_eq (by rw [step_of_halted h]; rfl)
  | false =>
    have hdest : m.template.instr.portDestination =
        m.encoding.page.portDestination m.encoding.op := (Page.template_destination _ _).2
    rw [step_eq_effect h, outputCells, h, if_neg Bool.false_ne_true, ← hdest,
      ← portCells_fetch m m.template]
    exact ports_effect m.fetched m.template.instr m.encoding.n₁ m.encoding.n₂

/-- A step writes no cell of memory but the destination of its instruction and no
    port but the one of its output.  So it never changes both, nor more than two
    adjacent cells, nor more than one port; this holds of a fault as well. -/
theorem tryStep_frame (m : Machine) :
    (∀ a, a ∉ m.storeCells → m.tryStep.1.mem.get a = m.mem.get a) ∧
    (∀ p, p ∉ m.outputCells → m.tryStep.1.ports.get p = m.ports.get p) ∧
    (m.tryStep.1.mem = m.mem ∨ m.tryStep.1.ports = m.ports) ∧
    (∃ a, ∀ b, m.tryStep.1.mem.get b ≠ m.mem.get b → b = a ∨ b = a + 1) ∧
    ∃ p, ∀ q, m.tryStep.1.ports.get q ≠ m.ports.get q → q = p := by
  have hmem : ∀ a, a ∉ m.storeCells → m.tryStep.1.mem.get a = m.mem.get a := mem_step m
  have hports : ∀ p, p ∉ m.outputCells → m.tryStep.1.ports.get p = m.ports.get p := ports_step m
  refine ⟨hmem, hports, ?_, ?_, ?_⟩
  · obtain hnone | hnone := storeCells_eq_nil_or m
    · exact .inl (Space.eq_of_sameOutside_nil (hnone ▸ mem_step m))
    · exact .inr (Space.eq_of_sameOutside_nil (hnone ▸ ports_step m))
  · obtain ⟨a, ha⟩ := exists_storeCells m
    exact ⟨a, fun b hb => ha b (Classical.not_not.mp fun hnot => hb (hmem b hnot))⟩
  · obtain ⟨p, hp⟩ := exists_outputCells m
    exact ⟨p, fun q hq => hp q (Classical.not_not.mp fun hnot => hq (hports q hnot))⟩

end Machine

end Z80
