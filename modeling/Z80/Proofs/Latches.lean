/-
  Z80.Proofs.Latches

  The latches of the processor: the interrupt flip-flops, the interrupt mode and the halt
  latch, over runs of any length.

  Eight opcodes change a latch, and what each does is listed by page (`Page.latchOp?`,
  `LatchOp.apply`); every other opcode leaves all of them (`latches_step`).  From the list
  follow two laws.

    * `interrupt_law`: from power-on or a reset both flip-flops agree and the mode is 0, 1
      or 2, whatever is executed, and LD A,I and LD A,R show in P/V what the last EI or DI
      said.
    * `halt_law`: HALT is the only way into the halt latch, nothing leads out of it, and a
      halted machine only counts in R.
-/

import Z80.Proofs.RefreshCounter

namespace Z80

/-! ## The latches and what sets them -/

/-- The latches that no operand names. -/
structure Latches where
  iff1 : Bool
  iff2 : Bool
  im : Byte
  halted : Bool
  deriving DecidableEq

/-- What an opcode can do to the latches. -/
inductive LatchOp where
  /-- HALT. -/
  | halt
  /-- EI or DI: both flip-flops are switched. -/
  | switch (on : Bool)
  /-- RETN and RETI: the first flip-flop takes the second. -/
  | restore
  /-- IM n. -/
  | mode (n : Byte)
  deriving DecidableEq

/-- The latches after one of these. -/
def LatchOp.apply (op : LatchOp) (l : Latches) : Latches :=
  match op with
  | halt => { l with halted := true }
  | switch on => { l with iff1 := on, iff2 := on }
  | restore => { l with iff1 := l.iff2 }
  | mode n => { l with im := n }

/-- What EI and DI switch the flip-flops to. -/
def LatchOp.switched? : LatchOp → Option Bool
  | switch on => some on
  | _ => none

/-- The opcodes that change a latch.  A DD or FD byte in front changes nothing about them. -/
def Page.latchOp? (p : Page) (op : Byte) : Option LatchOp :=
  match p with
  | main _ =>
    match op with
    | 0x76 => some .halt
    | 0xF3 => some (.switch false)
    | 0xFB => some (.switch true)
    | _ => none
  | ed =>
    match op with
    | 0x45 | 0x4D => some .restore
    | 0x46 => some (.mode 0)
    | 0x56 => some (.mode 1)
    | 0x5E => some (.mode 2)
    | _ => none
  | _ => none

/-- There are three interrupt modes. -/
theorem Page.mode_of_latchOp? {p : Page} {op n : Byte} (h : p.latchOp? op = some (.mode n)) :
    n = 0 ∨ n = 1 ∨ n = 2 := by
  cases p with
  | main x? =>
    dsimp only [latchOp?] at h
    split at h <;> cases h
  | ed =>
    dsimp only [latchOp?] at h
    split at h <;> simp_all
  | _ => cases h

/-! ## Instructions -/

/-- What an instruction does to the latches. -/
def Instr.latchOp? : Instr → Option LatchOp
  | halt => some .halt
  | di => some (.switch false)
  | ei => some (.switch true)
  | retn => some .restore
  | im n => some (.mode n)
  | _ => none

theorem Instr.latchOp?_withBytes (i : Instr) (n₁ n₂ : Byte) :
    (i.withBytes n₁ n₂).latchOp? = i.latchOp? := by
  cases i with
  | unimplemented opcode => cases opcode <;> rfl
  | _ => rfl

/-- The decoder has a latch in the listed opcodes and in no others. -/
theorem Page.template_latchOp? (p : Page) (op : Byte) :
    (p.template op).instr.latchOp? = p.latchOp? op := by
  revert p op
  exact forall_opcode (by decide +kernel)

namespace Machine

/-- The latches of a machine. -/
def latches (m : Machine) : Latches :=
  ⟨m.regs.iff1, m.regs.iff2, m.im, m.halted⟩

variable (m : Machine)

@[simp] theorem latches_write (o : Operand) (v : Byte) : (m.write o v).latches = m.latches := by
  cases o with
  | high x => cases x <;> rfl
  | low x => cases x <;> rfl
  | _ => rfl

@[simp] theorem latches_setPair (rr : Pair) (w : Word) :
    (m.setPair rr w).latches = m.latches := by
  cases rr with
  | index x => cases x <;> rfl
  | _ => rfl

@[simp] theorem latches_setFlags (f : Flags) : (m.setFlags f).latches = m.latches := rfl

@[simp] theorem latches_setPc (w : Word) : (m.setPc w).latches = m.latches := rfl

@[simp] theorem latches_copyTo (r? : Option Reg8) (v : Byte) :
    (m.copyTo r? v).latches = m.latches := by
  cases r? <;> rfl

@[simp] theorem latches_jumpIf (taken : Bool) (w : Word) :
    (m.jumpIf taken w).latches = m.latches := by
  cases taken <;> rfl

@[simp] theorem latches_callIf (taken : Bool) (w : Word) :
    (m.callIf taken w).latches = m.latches := by
  cases taken <;> rfl

@[simp] theorem latches_returnIf (taken : Bool) : (m.returnIf taken).latches = m.latches := by
  cases taken <;> rfl

@[simp] theorem latches_block (op : BlockOp) (dir : Direction) :
    (m.block op dir).latches = m.latches := by
  cases op <;> rfl

/-- An instruction does to the latches what the list says, whatever else it does. -/
theorem latches_effect (i : Instr) (taken : Bool) :
    (i.effect taken m).latches = i.latchOp?.elim m.latches (·.apply m.latches) := by
  cases i with
  | ld | ldByte | ldWord | ldPairFrom | inc | dec | rot | bit | res | set | incPair | decPair
  | addPair | adcHl | sbcHl | ldSp =>
    -- results are written to an operand or a pair, and neither reaches a latch
    simp [Instr.effect, Instr.latchOp?, replace, rotate]
  | pop rr => exact latches_setPair m.drop rr _
  | exSp rr => exact latches_setPair (m.storeWord m.regs.sp (m.pair rr)) rr _
  | jp cc? nn => exact latches_jumpIf m taken nn
  | jr cc? d => exact latches_jumpIf m taken _
  | djnz d => exact latches_jumpIf (m.setReg .b (m.reg .b - 1)) taken _
  | call cc? nn => exact latches_callIf m taken nn
  | ret cc? => exact latches_returnIf m taken
  | block op dir repeats =>
    exact (latches_jumpIf (m.block op dir) taken _).trans (latches_block m op dir)
  | _ => rfl

/-! ## Steps -/

/-- What the next step does to the latches, by its opcode. -/
def latchOp? : Option LatchOp :=
  if m.halted then none else m.encoding.page.latchOp? m.encoding.op

/-- A step does to the latches what the list says of its opcode, and a halted machine
    leaves them. -/
theorem latches_step : m.step.latches = m.latchOp?.elim m.latches (·.apply m.latches) := by
  cases h : m.halted with
  | true =>
    rw [step_of_halted h, latchOp?, h]
    rfl
  | false =>
    -- only the template counts: the operand bytes put into it do not reach a latch
    have hop : m.instr.latchOp? = m.latchOp? := by
      rw [latchOp?, h, instr, Instr.latchOp?_withBytes]
      exact Page.template_latchOp? _ _
    rw [step_eq_effect h, ← hop]
    exact latches_effect m.fetched m.instr _

/-! ## Interrupts -/

variable {m : Machine}

/-- The machine at power-on, with memory and ports filled and the program counter on an entry
    point, or after a reset. -/
inductive Started : Machine → Prop where
  | powerOn (clock : Clock) (mem ports : Space) (pc : Word) :
    Started ({ initial clock with mem, ports }.setPc pc)
  | reset (m : Machine) : Started m.reset

theorem Started.latches (h : m.Started) : m.latches = ⟨false, false, 0, false⟩ := by
  cases h <;> rfl

end Machine

/-- The flip-flops agree and the mode is one of the three. -/
structure Latches.Settled (l : Latches) : Prop where
  agree : l.iff1 = l.iff2
  mode : l.im = 0 ∨ l.im = 1 ∨ l.im = 2

/-- Only RETN and RETI move one flip-flop alone, and they move it to where it is. -/
theorem Latches.Settled.apply {l : Latches} (h : l.Settled) {p : Page} {op : Byte} {o : LatchOp}
    (ho : p.latchOp? op = some o) : (o.apply l).Settled := by
  obtain ⟨hagree, hmode⟩ := h
  cases o with
  | halt => exact ⟨hagree, hmode⟩
  | switch on => exact ⟨rfl, hmode⟩
  | restore => exact ⟨rfl, hmode⟩
  | mode n => exact ⟨hagree, Page.mode_of_latchOp? ho⟩

namespace Machine

variable {m : Machine}

theorem settled_step (h : m.latches.Settled) : m.step.latches.Settled := by
  rw [latches_step]
  cases ho : m.latchOp? with
  | none => exact h
  | some o =>
    unfold latchOp? at ho
    split at ho
    · cases ho
    · exact h.apply ho

theorem settled_steps (h : m.latches.Settled) (n : Nat) : (steps n m).latches.Settled := by
  induction n with
  | zero => exact h
  | succ n ih =>
    rw [steps_succ']
    exact settled_step ih

/-- What the EI and DI among the next `n` steps say, in their order. -/
def switched (n : Nat) (m : Machine) : List Bool :=
  (List.range n).filterMap fun i => (steps i m).latchOp?.bind LatchOp.switched?

theorem switched_succ (n : Nat) (m : Machine) :
    switched (n + 1) m = switched n m ++ ((steps n m).latchOp?.bind LatchOp.switched?).toList := by
  simp only [switched, List.range_succ, List.filterMap_append]
  cases h : (steps n m).latchOp?.bind LatchOp.switched? <;> simp [h]

theorem iff2_step (m : Machine) :
    m.step.regs.iff2 = (m.latchOp?.bind LatchOp.switched?).getD m.regs.iff2 := by
  have hstep : m.step.regs.iff2 = (m.latchOp?.elim m.latches (·.apply m.latches)).iff2 :=
    congrArg Latches.iff2 (latches_step m)
  rw [hstep]
  cases m.latchOp? with
  | none => rfl
  | some o => cases o <;> rfl

/-- The second flip-flop is what the last EI or DI said. -/
theorem iff2_steps (n : Nat) (m : Machine) :
    (steps n m).regs.iff2 = (switched n m).getLast?.getD m.regs.iff2 := by
  induction n with
  | zero => rfl
  | succ n ih =>
    rw [steps_succ', iff2_step, switched_succ, List.getLast?_append, ih]
    cases (steps n m).latchOp?.bind LatchOp.switched? <;> rfl

/-- Whether the next step executes LD A,I or LD A,R. -/
def LoadsSpecial (m : Machine) : Prop :=
  m.halted = false ∧ m.mem.get m.pc = 0xED ∧
    (m.mem.get (m.pc + 1) = 0x57 ∨ m.mem.get (m.pc + 1) = 0x5F)

/-- LD A,I and LD A,R show the second flip-flop in P/V. -/
theorem pv_of_loadsSpecial (h : m.LoadsSpecial) : m.step.flags.pv = m.regs.iff2 := by
  obtain ⟨hrun, hpage, hop | hop⟩ := h
  · rw [step_of_running hrun, current, hpage, hop]
    rfl
  · rw [step_of_running hrun, current, hpage, hop]
    rfl

/-- Interrupts over any run from power-on or a reset, whatever memory and ports hold and
    whatever is executed, opcodes without an instruction included.  Both flip-flops agree and
    the mode is 0, 1 or 2; so RETN and RETI leave the first flip-flop, and LD A,I and LD A,R
    show in P/V what the last EI or DI said, or nothing if there was none. -/
theorem interrupt_law (h : m.Started) (n : Nat) :
    (steps n m).regs.iff1 = (steps n m).regs.iff2 ∧
    ((steps n m).im = 0 ∨ (steps n m).im = 1 ∨ (steps n m).im = 2) ∧
    ((steps n m).latchOp? = some .restore →
      (steps (n + 1) m).regs.iff1 = (steps n m).regs.iff1) ∧
    ((steps n m).LoadsSpecial →
      (steps (n + 1) m).flags.pv = (switched n m).getLast?.getD false) := by
  have hstart : m.latches.Settled := by
    rw [h.latches]
    exact ⟨rfl, .inl rfl⟩
  have hsettled : (steps n m).latches.Settled := settled_steps hstart n
  refine ⟨hsettled.agree, hsettled.mode, fun hrestore => ?_, fun hload => ?_⟩
  · -- the first flip-flop takes the second, which agrees with it
    rw [steps_succ']
    have hstep := congrArg Latches.iff1 (latches_step (steps n m))
    rw [hrestore] at hstep
    exact hstep.trans hsettled.agree.symm
  · have hiff2 : m.regs.iff2 = false := congrArg Latches.iff2 h.latches
    rw [steps_succ', pv_of_loadsSpecial hload, iff2_steps, hiff2]

/-- After EI, LD A,I sets P/V, which it clears without the EI, and RETN leaves the first
    flip-flop set. -/
theorem interrupt_law_atCode :
    (steps 2 (atCode 0 [0xFB, 0xED, 0x57])).flags.pv = true ∧
    (steps 1 (atCode 0 [0xED, 0x57])).flags.pv = false ∧
    (steps 2 (atCode 0 [0xFB, 0xED, 0x45])).regs.iff1 =
      (steps 1 (atCode 0 [0xFB, 0xED, 0x45])).regs.iff1 := by
  have hstarted (code : List Byte) : (atCode 0 code).Started :=
    .powerOn {} (Space.zero.load 0 code) .zero 0
  -- EI moves the program counter on and leaves memory
  have hfirst (b₁ b₂ : Byte) : (steps 1 (atCode 0 [0xFB, b₁, b₂])).halted = false ∧
      (steps 1 (atCode 0 [0xFB, b₁, b₂])).pc = 1 ∧
      (steps 1 (atCode 0 [0xFB, b₁, b₂])).mem = Space.zero.load 0 [0xFB, b₁, b₂] := by
    have hcurrent : (atCode 0 [0xFB, b₁, b₂]).current = ⟨.ei, 1, false⟩ := by
      simp [atCode, current, pc, Space.load, Space.get_set]
      rfl
    have hpc : (0 : Word) + (1 : Nat).toUInt16 = 1 := by decide
    rw [steps, step_of_running rfl, hcurrent]
    exact ⟨rfl, hpc, rfl⟩
  refine ⟨?_, ?_, ?_⟩
  · have hload : (steps 1 (atCode 0 [0xFB, 0xED, 0x57])).LoadsSpecial := by
      obtain ⟨hrun, hpc, hmem⟩ := hfirst 0xED 0x57
      refine ⟨hrun, ?_⟩
      rw [hpc, hmem]
      simp [Space.load, Space.get_set]
    have hswitched : switched 1 (atCode 0 [0xFB, 0xED, 0x57]) = [true] := by
      simp [switched, steps, atCode, latchOp?, encoding, pc, initial, Space.load, Space.get_set,
        Encoding.ofBytes, Index.code, Page.latchOp?, LatchOp.switched?]
    have hlaw := (interrupt_law (hstarted _) 1).2.2.2 hload
    rwa [hswitched] at hlaw
  · have hload : (steps 0 (atCode 0 [0xED, 0x57])).LoadsSpecial := by
      refine ⟨rfl, ?_⟩
      simp [steps, atCode, pc, Space.load, Space.get_set]
    exact (interrupt_law (hstarted _) 0).2.2.2 hload
  · refine (interrupt_law (hstarted _) 1).2.2.1 ?_
    obtain ⟨hrun, hpc, hmem⟩ := hfirst 0xED 0x45
    rw [latchOp?, encoding, hrun, hpc, hmem]
    simp [Space.load, Space.get_set, Encoding.ofBytes, Page.latchOp?]

end Machine

/-! ## HALT -/

/-- Behind a DD or FD byte the main page has the next byte as its opcode. -/
theorem Encoding.op_of_behindIndex {x : Index} {b₁ b₂ b₃ : Byte} {x? : Option Index}
    (h : (behindIndex x b₁ b₂ b₃).page = .main x?) : (behindIndex x b₁ b₂ b₃).op = b₁ := by
  unfold behindIndex at h ⊢
  by_cases hidle : b₁ = 0xDD ∨ b₁ = 0xFD ∨ b₁ = 0xED
  · rw [if_pos hidle] at h
    cases h
  · rw [if_neg hidle] at h ⊢
    by_cases hcb : b₁ = 0xCB
    · rw [if_pos hcb] at h
      cases h
    · rw [if_neg hcb]

/-- An opcode of the main page is the first byte, or the second behind a DD or FD byte. -/
theorem Encoding.op_of_main {b₀ b₁ b₂ b₃ : Byte} {x? : Option Index}
    (h : (ofBytes b₀ b₁ b₂ b₃).page = .main x?) :
    (ofBytes b₀ b₁ b₂ b₃).op = b₀ ∨
      (b₀ = 0xDD ∨ b₀ = 0xFD) ∧ (ofBytes b₀ b₁ b₂ b₃).op = b₁ := by
  unfold ofBytes at h ⊢
  -- CB and ED lead off the main page; IX and IY leave it to the byte behind them
  by_cases hcb : b₀ = 0xCB
  · rw [if_pos hcb] at h
    cases h
  rw [if_neg hcb] at h ⊢
  by_cases hed : b₀ = 0xED
  · rw [if_pos hed] at h
    cases h
  rw [if_neg hed] at h ⊢
  by_cases hix : b₀ = Index.ix.code
  · rw [if_pos hix] at h ⊢
    exact .inr ⟨.inl hix, op_of_behindIndex h⟩
  rw [if_neg hix] at h ⊢
  by_cases hiy : b₀ = Index.iy.code
  · rw [if_pos hiy] at h ⊢
    exact .inr ⟨.inr hiy, op_of_behindIndex h⟩
  rw [if_neg hiy]
  exact .inl rfl

/-- HALT is listed on the main page only. -/
theorem Page.eq_main_of_halt {p : Page} {op : Byte} (h : p.latchOp? op = some .halt) :
    (∃ x?, p = .main x?) ∧ op = 0x76 := by
  cases p with
  | main x? =>
    dsimp only [Page.latchOp?] at h
    split at h <;> simp_all
  | ed =>
    dsimp only [Page.latchOp?] at h
    split at h <;> cases h
  | _ => cases h

namespace Machine

variable {m : Machine}

/-- Whether the byte at the program counter is that of HALT, or a DD or FD byte in front of
    it. -/
def AtHalt (m : Machine) : Prop :=
  m.mem.get m.pc = 0x76 ∨
    (m.mem.get m.pc = 0xDD ∨ m.mem.get m.pc = 0xFD) ∧ m.mem.get (m.pc + 1) = 0x76

/-- The bytes that HALT has in front of a machine: one, or two with a DD or FD byte. -/
def haltSize (m : Machine) : Nat :=
  if m.mem.get m.pc = 0x76 then 1 else 2

/-- Only a HALT, or one behind a DD or FD byte, is decoded as one. -/
theorem atHalt_of_latchOp? (h : m.latchOp? = some .halt) : m.AtHalt := by
  unfold latchOp? at h
  split at h
  · cases h
  · obtain ⟨⟨x?, hpage⟩, hop⟩ := Page.eq_main_of_halt h
    obtain hfirst | ⟨hcode, hsecond⟩ := Encoding.op_of_main hpage
    · exact .inl (hfirst.symm.trans hop)
    · exact .inr ⟨hcode, hsecond.symm.trans hop⟩

theorem current_of_atHalt (h : m.AtHalt) :
    m.current = ⟨.halt, m.haltSize, m.haltSize == 2⟩ := by
  obtain h | ⟨h | h, hnext⟩ := h
  · rw [current, haltSize, h]
    rfl
  · rw [current, haltSize, h, hnext]
    rfl
  · rw [current, haltSize, h, hnext]
    rfl

/-- HALT sets the latch and stays behind its bytes. -/
theorem step_of_atHalt (hrun : m.halted = false) (h : m.AtHalt) :
    m.step = { m.refreshed m.haltSize with
      regs.pc := m.pc + m.haltSize.toUInt16, halted := true, cycles := 4 * m.haltSize } := by
  rw [step_of_running hrun, current_of_atHalt h]
  obtain hsize | hsize : m.haltSize = 1 ∨ m.haltSize = 2 := by
    unfold haltSize
    split <;> simp
  · rw [hsize]
    rfl
  · rw [hsize]
    rfl

/-- A machine that runs is halted by a HALT and by nothing else. -/
theorem halted_step_iff (hrun : m.halted = false) : m.step.halted = true ↔ m.AtHalt := by
  constructor
  · intro hhalted
    apply atHalt_of_latchOp?
    have hstep : (m.latchOp?.elim m.latches (·.apply m.latches)).halted = true := by
      rw [← latches_step]
      exact hhalted
    cases ho : m.latchOp? with
    | none =>
      rw [ho] at hstep
      exact absurd (hrun.symm.trans hstep) (by decide)
    | some o =>
      rw [ho] at hstep
      cases o with
      | halt => rfl
      | _ => exact absurd (hrun.symm.trans hstep) (by decide)
  · intro h
    rw [step_of_atHalt hrun h]

/-- Nothing clears the halt latch. -/
theorem halted_step (h : m.halted = true) : m.step.halted = true := by
  rw [step_of_halted h]
  exact h

/-- A halted machine counts in R, four T-states for each step, and does nothing else. -/
theorem steps_of_halted (h : m.halted = true) (n : Nat) :
    steps n m = { m.refreshed n with cycles := if n = 0 then m.cycles else 4 } := by
  induction n with
  | zero => rfl
  | succ n ih =>
    -- all but the last step are refreshes, so the last one meets the latch set
    have hhalted : (steps n m).halted = true := by
      rw [ih]
      exact h
    rw [steps_succ', step_of_halted hhalted, ih, idle, refreshed, refreshed,
      Function.iterate_succ_apply', if_neg (Nat.succ_ne_zero n)]
    rfl

theorem stepsTime_of_halted (h : m.halted = true) (n : Nat) : stepsTime n m = 4 * n := by
  induction n generalizing m with
  | zero => rfl
  | succ n ih =>
    have hcycles : m.step.cycles = 4 := by
      rw [step_of_halted h]
      rfl
    rw [stepsTime, ih (halted_step h), hcycles]
    omega

/-- HALT is the only way in, and there is no way out.  A machine that runs is halted by its
    next step exactly when the opcode is that of HALT, alone or behind one DD or FD byte.  A
    halted machine stays so, and all that any number of steps changes is R, which counts one
    fetch for each, and the time of the last step, which is four T-states.  So after a HALT
    memory, ports and all registers but the program counter and R stay what they were. -/
theorem halt_law (m : Machine) :
    (m.halted = false → (m.step.halted = true ↔ m.AtHalt)) ∧
    (m.halted = true → ∀ n,
      steps n m = { m.refreshed n with cycles := if n = 0 then m.cycles else 4 } ∧
      (steps n m).halted = true ∧
      (steps n m).tryStep.2 = .ok 4 ∧ stepsTime n m = 4 * n) ∧
    (m.halted = false → m.AtHalt → ∀ n,
      steps (n + 1) m = { m.refreshed (n + m.haltSize) with
        regs.pc := m.pc + m.haltSize.toUInt16
        halted := true
        cycles := if n = 0 then 4 * m.haltSize else 4 }) := by
  refine ⟨halted_step_iff, fun h n => ?_, fun hrun h n => ?_⟩
  · have hsteps := steps_of_halted h n
    have hhalted : (steps n m).halted = true := by
      rw [hsteps]
      exact h
    refine ⟨hsteps, hhalted, ?_, stepsTime_of_halted h n⟩
    rw [tryStep, fault?, if_pos hhalted, step_of_halted hhalted]
    rfl
  · have hhalted : m.step.halted = true := (halted_step_iff hrun).mpr h
    -- the fetches of the HALT and those of the idle steps add up in R
    rw [steps, steps_of_halted hhalted, step_of_atHalt hrun h]
    simp only [refreshed, withR, Function.iterate_add_apply]

/-- HALT behind a DD byte at the top of memory: it halts, and three idle steps later the
    program counter is behind it and R has counted five fetches. -/
theorem halt_law_atCode :
    let m := atCode 0xFFFE [0xDD, 0x76]
    m.AtHalt ∧ m.step.halted = true ∧ (steps 4 m).pc = 0 ∧ (steps 4 m).regs.r = 5 ∧
      (steps 4 m).mem = m.mem ∧ stepsTime 3 m.step = 12 := by
  intro m
  have h : m.AtHalt := by
    simp [m, AtHalt, atCode, pc, Space.load, Space.get_set]
  have hsize : m.haltSize = 2 := by
    simp [m, haltSize, atCode, pc, Space.load, Space.get_set]
  obtain ⟨hin, -, hstay⟩ := halt_law m
  have hhalted : m.step.halted = true := (hin rfl).mpr h
  have hsteps := hstay rfl h 3
  rw [hsize] at hsteps
  refine ⟨h, hhalted, ?_, ?_, ?_, ((halt_law m.step).2.1 hhalted 3).2.2.2⟩
  · rw [hsteps]
    show (0xFFFE : Word) + (2 : Nat).toUInt16 = 0
    decide
  · rw [hsteps]
    show Registers.refreshed^[5] 0 = 5
    decide
  · rw [hsteps]
    rfl

end Machine

end Z80
