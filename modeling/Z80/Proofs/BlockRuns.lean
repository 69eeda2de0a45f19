/-
  Z80.Proofs.BlockRuns

  Runs of a repeating block instruction.

  Executing LDIR and its kin is one round of the block, two refreshes, and the decision
  whether the program counter stays on the instruction (`execute_block`).  As long as the
  two bytes of the instruction stand, `k` steps are `k` rounds of the block
  (`steps_of_standing`), so what a run does is read off its rounds alone, and it ends with
  the first round that leaves no work (`runsBlock`).

  The counter is BC or B; zero in it counts once around (`Word.turns`, `Byte.turns`).
  HL and DE move cell by cell in the direction of the block (`Direction.along`).
-/

import Z80.Proofs.RefreshCounter

namespace Z80

/-! ## Counting -/

theorem Word.sub_succ (w : Word) (n : Nat) : w - (n + 1).toUInt16 = w - n.toUInt16 - 1 := by
  rw [show (n + 1).toUInt16 = n.toUInt16 + 1 from UInt16.ofNat_add n 1]
  grind

theorem Byte.sub_succ (b : Byte) (n : Nat) : b - (n + 1).toUInt8 = b - n.toUInt8 - 1 := by
  rw [show (n + 1).toUInt8 = n.toUInt8 + 1 from UInt8.ofNat_add n 1]
  grind

/-! ## Cells in a direction -/

namespace Direction

/-- The address `i` cells from `a` in a direction, around the ends of the space. -/
def along (dir : Direction) (a : Word) (i : Nat) : Word :=
  match dir with
  | up => a + i.toUInt16
  | down => a - i.toUInt16

@[simp] theorem along_zero (dir : Direction) (a : Word) : dir.along a 0 = a := by
  cases dir with
  | up => exact UInt16.add_zero a
  | down => exact UInt16.sub_zero a

theorem along_succ (dir : Direction) (a : Word) (i : Nat) :
    dir.along a (i + 1) = dir.along a i + dir.delta := by
  cases dir with
  | up =>
    have hi : (i + 1).toUInt16 = i.toUInt16 + 1 := UInt16.ofNat_add i 1
    dsimp only [along, delta]
    rw [hi, UInt16.add_assoc]
  | down =>
    have hdown : a - i.toUInt16 + 0xFFFF = a - i.toUInt16 - 1 := by grind
    dsimp only [along, delta]
    rw [Word.sub_succ, hdown]

/-- Cells fewer than 65536 apart are different. -/
theorem along_inj (dir : Direction) (a : Word) {i j : Nat} (hi : i < 65536) (hj : j < 65536)
    (h : dir.along a i = dir.along a j) : i = j := by
  have hword : i.toUInt16 = j.toUInt16 := by
    cases dir with
    | up => exact (UInt16.add_right_inj a).mp h
    | down => exact (UInt16.sub_right_inj a).mp h
  have hnat : i % 65536 = j % 65536 := congrArg UInt16.toNat hword
  omega

end Direction

/-! ## Counters -/

/-- The rounds that BC stands for; zero stands for all of them. -/
def Word.turns (w : Word) : Nat :=
  if w = 0 then 65536 else w.toNat

/-- The rounds that B stands for. -/
def Byte.turns (b : Byte) : Nat :=
  if b = 0 then 256 else b.toNat

theorem Word.turns_pos (w : Word) : 0 < w.turns := by
  unfold turns
  split
  case isTrue => decide
  case isFalse h => exact UInt16.pos_iff_ne_zero.mpr h

theorem Word.turns_le (w : Word) : w.turns ≤ 65536 := by
  have := w.toNat_lt
  unfold turns
  split <;> omega

theorem Byte.turns_pos (b : Byte) : 0 < b.turns := by
  unfold turns
  split
  case isTrue => decide
  case isFalse h => exact UInt8.pos_iff_ne_zero.mpr h

theorem Byte.turns_le (b : Byte) : b.turns ≤ 256 := by
  have := b.toNat_lt
  unfold turns
  split <;> omega

theorem Word.sub_turns (w : Word) : w - w.turns.toUInt16 = 0 := by
  unfold turns
  split
  case isTrue h => rw [h]; rfl
  case isFalse => rw [show w.toNat.toUInt16 = w from UInt16.ofNat_toNat, UInt16.sub_self]

theorem Byte.sub_turns (b : Byte) : b - b.turns.toUInt8 = 0 := by
  unfold turns
  split
  case isTrue h => rw [h]; rfl
  case isFalse => rw [show b.toNat.toUInt8 = b from UInt8.ofNat_toNat, UInt8.sub_self]

/-- A counter reaches zero in its last turn and not before. -/
theorem Word.counted (w : Word) {i : Nat} (hi : i < w.turns) :
    (w - i.toUInt16 - 1 != 0) = (i + 1 != w.turns) := by
  have hzero : w - i.toUInt16 - 1 = 0 ↔ w = (i + 1).toUInt16 := by
    rw [← sub_succ]
    grind
  have hnat : w = (i + 1).toUInt16 ↔ w.toNat = (i + 1) % 65536 := UInt16.toNat_inj.symm
  have := w.toNat_lt
  rw [Bool.eq_iff_iff, bne_iff_ne, bne_iff_ne, ne_eq, ne_eq, hzero, hnat, not_congr]
  unfold turns at hi ⊢
  split at hi
  case isTrue h =>
    have : w.toNat = 0 := congrArg UInt16.toNat h
    rw [if_pos h]
    omega
  case isFalse h =>
    rw [if_neg h]
    omega

theorem Byte.counted (b : Byte) {i : Nat} (hi : i < b.turns) :
    (b - i.toUInt8 - 1 != 0) = (i + 1 != b.turns) := by
  have hzero : b - i.toUInt8 - 1 = 0 ↔ b = (i + 1).toUInt8 := by
    rw [← sub_succ]
    grind
  have hnat : b = (i + 1).toUInt8 ↔ b.toNat = (i + 1) % 256 := UInt8.toNat_inj.symm
  have := b.toNat_lt
  rw [Bool.eq_iff_iff, bne_iff_ne, bne_iff_ne, ne_eq, ne_eq, hzero, hnat, not_congr]
  unfold turns at hi ⊢
  split at hi
  case isTrue h =>
    have : b.toNat = 0 := congrArg UInt8.toNat h
    rw [if_pos h]
    omega
  case isFalse h =>
    rw [if_neg h]
    omega

/-! ## Rounds -/

namespace Machine

/-- The machine after a number of rounds of a block. -/
def rounds (op : BlockOp) (dir : Direction) : Nat → Machine → Machine
  | 0, m => m
  | n + 1, m => (rounds op dir n m).block op dir

variable (m : Machine) (op : BlockOp) (dir : Direction)

/-! ## What a round leaves alone -/

/-- A round changes the main bank, memory and the ports. -/
theorem block_frame : m.block op dir = { m with
    regs := { m.regs with main := (m.block op dir).regs.main }
    mem := (m.block op dir).mem
    ports := (m.block op dir).ports } := by
  cases op <;> dsimp only [block, blockLoad, blockCompare, blockInput, blockOutput]

theorem rounds_frame (n : Nat) : rounds op dir n m = { m with
    regs := { m.regs with main := (rounds op dir n m).regs.main }
    mem := (rounds op dir n m).mem
    ports := (rounds op dir n m).ports } := by
  induction n with
  | zero => rfl
  | succ n ih =>
    rw [rounds, block_frame]
    generalize (rounds op dir n m).block op dir = after
    rw [ih]

/-- A search only reads memory, and an output too. -/
theorem mem_rounds {op : BlockOp} (hop : op = .compare ∨ op = .output) (n : Nat) :
    (rounds op dir n m).mem = m.mem := by
  induction n with
  | zero => rfl
  | succ n ih =>
    rw [rounds]
    obtain rfl | rfl := hop
    · rw [block, blockCompare]
      exact ih
    · rw [block, blockOutput]
      exact ih

/-- Only an output changes the ports. -/
theorem ports_rounds {op : BlockOp} (hop : op ≠ .output) (n : Nat) :
    (rounds op dir n m).ports = m.ports := by
  induction n with
  | zero => rfl
  | succ n ih =>
    rw [rounds]
    cases op with
    | load =>
      rw [block, blockLoad]
      exact ih
    | compare =>
      rw [block, blockCompare]
      exact ih
    | input =>
      rw [block, blockInput]
      exact ih
    | output => exact absurd rfl hop

/-- R, the program counter and the time of the last instruction do not show in a round. -/
theorem block_fetched (n c : Nat) (pc : Word) :
    ({ (m.refreshed n).setPc pc with cycles := c }).block op dir =
      { ((m.block op dir).refreshed n).setPc pc with cycles := c } := by
  cases op <;>
    dsimp only [block, blockLoad, blockCompare, blockInput, blockOutput, refreshed, withR, setPc,
      hl, de, bc, a, flags, reg]

theorem block_refreshed (n c : Nat) :
    ({ m.refreshed n with cycles := c }).block op dir =
      { (m.block op dir).refreshed n with cycles := c } := by
  refine (block_fetched m op dir n c m.pc).trans ?_
  rw [block_frame]
  rfl

theorem blockContinues_fetched (n c : Nat) (pc : Word) :
    ({ (m.refreshed n).setPc pc with cycles := c }).blockContinues op = m.blockContinues op := by
  cases op <;> rfl

end Machine

/-! ## The main bank -/

/-- The bank with HL, DE and BC replaced. -/
def Bank.moved (k : Bank) (hl de bc : Word) : Bank :=
  { k with h := hl.hi, l := hl.lo, d := de.hi, e := de.lo, b := bc.hi, c := bc.lo }

theorem Bank.moved_self (k : Bank) : k.moved (k.pair .hl) (k.pair .de) (k.pair .bc) = k := by
  simp [moved, pair, get, Reg16.high, Reg16.low]

/-- What the pairs and F held before does not show. -/
theorem Bank.moved_moved (k : Bank) (hl de bc hl' de' bc' : Word) (f f' : Flags) :
    { ({ k.moved hl de bc with f := f } : Bank).moved hl' de' bc' with f := f' } =
      { k.moved hl' de' bc' with f := f' } := rfl

namespace BlockOp

/-- DE after a number of rounds: only a copy moves it. -/
def pointer (op : BlockOp) (dir : Direction) (de : Word) (n : Nat) : Word :=
  match op with
  | load => dir.along de n
  | _ => de

/-- BC after a number of rounds: it counts down as a word, or B does alone. -/
def counter (op : BlockOp) (bc : Word) (n : Nat) : Word :=
  match op with
  | load | compare => bc - n.toUInt16
  | input | output => Word.ofBytes (bc.hi - n.toUInt8) bc.lo

theorem pointer_zero (op : BlockOp) (dir : Direction) (de : Word) : op.pointer dir de 0 = de := by
  cases op with
  | load => exact dir.along_zero de
  | _ => rfl

theorem pointer_succ (op : BlockOp) (dir : Direction) (de : Word) (n : Nat) :
    op.pointer dir de (n + 1) = op.pointer dir (op.pointer dir de n) 1 := by
  cases op with
  | load =>
    dsimp only [pointer]
    rw [dir.along_succ, dir.along_succ (dir.along de n) 0, dir.along_zero]
  | _ => rfl

theorem counter_zero (op : BlockOp) (bc : Word) : op.counter bc 0 = bc := by
  have hword : bc - (0 : Nat).toUInt16 = bc := UInt16.sub_zero bc
  have hbyte : bc.hi - (0 : Nat).toUInt8 = bc.hi := UInt8.sub_zero bc.hi
  cases op <;> simp only [counter, hword, hbyte, Word.ofBytes_hi_lo]

theorem counter_succ (op : BlockOp) (bc : Word) (n : Nat) :
    op.counter bc (n + 1) = op.counter (op.counter bc n) 1 := by
  have hword : bc - (n + 1).toUInt16 = bc - n.toUInt16 - (1 : Nat).toUInt16 := bc.sub_succ n
  have hbyte : bc.hi - (n + 1).toUInt8 = bc.hi - n.toUInt8 - (1 : Nat).toUInt8 :=
    Byte.sub_succ bc.hi n
  cases op <;> simp only [counter, hword, hbyte, Word.hi_ofBytes, Word.lo_ofBytes]

end BlockOp

namespace Machine

variable (m : Machine) (op : BlockOp) (dir : Direction)

/-- In every block HL moves by one cell, and the main bank keeps the rest but F. -/
theorem main_block : (m.block op dir).regs.main =
    { m.regs.main.moved (dir.along m.hl 1) (op.pointer dir m.de 1) (op.counter m.bc 1) with
      f := (m.block op dir).flags } := by
  have halong (a : Word) : dir.along a 1 = a + dir.delta := by
    rw [dir.along_succ a 0, dir.along_zero]
  rw [halong]
  cases op with
  | load =>
    rw [BlockOp.pointer, halong]
    rfl
  | _ =>
    simp [block, blockCompare, blockInput, blockOutput, BlockOp.pointer, BlockOp.counter, flags,
      Bank.moved, Bank.setPair, Bank.set, Bank.pair, Bank.get, Reg16.high, Reg16.low, reg, hl, de,
      bc]

theorem main_rounds (n : Nat) : (rounds op dir n m).regs.main =
    { m.regs.main.moved (dir.along m.hl n) (op.pointer dir m.de n) (op.counter m.bc n) with
      f := (rounds op dir n m).flags } := by
  induction n with
  | zero =>
    rw [dir.along_zero, op.pointer_zero, op.counter_zero]
    exact congrArg (fun k : Bank => { k with f := m.regs.main.f }) m.regs.main.moved_self.symm
  | succ n ih =>
    have hhl : (rounds op dir n m).hl = dir.along m.hl n := by
      rw [hl, ih]
      exact Word.ofBytes_hi_lo _
    have hde : (rounds op dir n m).de = op.pointer dir m.de n := by
      rw [de, ih]
      exact Word.ofBytes_hi_lo _
    have hbc : (rounds op dir n m).bc = op.counter m.bc n := by
      rw [bc, ih]
      exact Word.ofBytes_hi_lo _
    have halong : dir.along (dir.along m.hl n) 1 = dir.along m.hl (n + 1) := by
      rw [dir.along_succ m.hl n, dir.along_succ _ 0, dir.along_zero]
    rw [rounds, main_block, hhl, hde, hbc, halong, ← op.pointer_succ, ← op.counter_succ]
    generalize ((rounds op dir n m).block op dir).flags = f
    rw [ih, Bank.moved_moved]

theorem hl_rounds (n : Nat) : (rounds op dir n m).hl = dir.along m.hl n := by
  rw [hl, main_rounds]
  exact Word.ofBytes_hi_lo _

theorem de_rounds (n : Nat) : (rounds op dir n m).de = op.pointer dir m.de n := by
  rw [de, main_rounds]
  exact Word.ofBytes_hi_lo _

theorem bc_rounds (n : Nat) : (rounds op dir n m).bc = op.counter m.bc n := by
  rw [bc, main_rounds]
  exact Word.ofBytes_hi_lo _

theorem a_rounds (n : Nat) : (rounds op dir n m).a = m.a := by
  rw [a, main_rounds]
  rfl

end Machine

/-! ## Executing the instruction -/

/-- The opcode behind ED of a repeating block instruction. -/
def BlockOp.code (op : BlockOp) (dir : Direction) : Byte :=
  match op, dir with
  | .load, .up => 0xB0
  | .compare, .up => 0xB1
  | .input, .up => 0xB2
  | .output, .up => 0xB3
  | .load, .down => 0xB8
  | .compare, .down => 0xB9
  | .input, .down => 0xBA
  | .output, .down => 0xBB

theorem decode_blockCode (op : BlockOp) (dir : Direction) (b₂ b₃ : Byte) :
    decode 0xED (op.code dir) b₂ b₃ = ⟨.block op dir true, 2, true⟩ := by
  cases op <;> cases dir <;> rfl

namespace Machine

/-- The machine is running and a repeating block instruction is at the program counter. -/
structure AtBlock (m : Machine) (op : BlockOp) (dir : Direction) : Prop where
  running : m.halted = false
  first : m.mem.get m.pc = 0xED
  second : m.mem.get (m.pc + 1) = op.code dir

variable {m : Machine} {op : BlockOp} {dir : Direction}

theorem AtBlock.current (h : m.AtBlock op dir) : m.current = ⟨.block op dir true, 2, true⟩ := by
  rw [Machine.current, h.first, h.second, decode_blockCode]

/-- One execution is a round of the block, two refreshes and the choice of what is next. -/
theorem execute_block (m : Machine) (op : BlockOp) (dir : Direction) :
    m.execute ⟨.block op dir true, 2, true⟩ =
      { ((m.block op dir).refreshed 2).setPc (if m.blockContinues op then m.pc else m.pc + 2) with
        cycles := if m.blockContinues op then 21 else 16 } := by
  have hback : m.pc + 2 - 2 = m.pc := UInt16.add_sub_cancel ..
  have hfetch : m.fetch ⟨.block op dir true, 2, true⟩ = (m.refreshed 2).setPc (m.pc + 2) := rfl
  have hcontinues : ((m.refreshed 2).setPc (m.pc + 2)).blockContinues op = m.blockContinues op :=
    blockContinues_fetched m op 2 m.cycles (m.pc + 2)
  have hblock : ((m.refreshed 2).setPc (m.pc + 2)).block op dir =
      ((m.block op dir).refreshed 2).setPc (m.pc + 2) := by
    refine (block_fetched m op dir 2 m.cycles (m.pc + 2)).trans ?_
    rw [block_frame]
    rfl
  rw [execute, hfetch]
  simp only [Instr.taken, Bool.true_and, hcontinues]
  cases m.blockContinues op with
  | true =>
    show { (((m.refreshed 2).setPc (m.pc + 2)).block op dir).setPc (m.pc + 2 - 2) with
      cycles := 8 + 13 } = _
    rw [hblock, hback]
    rfl
  | false =>
    show { ((m.refreshed 2).setPc (m.pc + 2)).block op dir with cycles := 8 + 8 } = _
    rw [hblock]
    rfl

/-! ## Runs -/

/-- The machine between two executions of a block instruction, `k` of them done. -/
def between (m : Machine) (op : BlockOp) (dir : Direction) (k : Nat) : Machine :=
  { (rounds op dir k m).refreshed (2 * k) with cycles := if k = 0 then m.cycles else 21 }

theorem pc_rounds (m : Machine) (op : BlockOp) (dir : Direction) (n : Nat) :
    (rounds op dir n m).pc = m.pc := by
  rw [rounds_frame]
  rfl

theorem halted_rounds (m : Machine) (op : BlockOp) (dir : Direction) (n : Nat) :
    (rounds op dir n m).halted = m.halted := by
  rw [rounds_frame]

theorem refreshed_refreshed (m : Machine) (i j : Nat) :
    (m.refreshed i).refreshed j = m.refreshed (i + j) := by
  have hcount : Registers.refreshed^[j] (Registers.refreshed^[i] m.regs.r) =
      Registers.refreshed^[i + j] m.regs.r := by
    rw [← Function.iterate_add_apply, Nat.add_comm]
  exact congrArg m.withR hcount

/-- A block instruction stands as long as its two bytes do. -/
theorem AtBlock.rounds (hat : m.AtBlock op dir) {k : Nat}
    (hstands : ∀ a ∈ [m.pc, m.pc + 1], (rounds op dir k m).mem.get a = m.mem.get a) :
    (rounds op dir k m).AtBlock op dir where
  running := by rw [halted_rounds, hat.running]
  first := by rw [pc_rounds, hstands m.pc (by simp), hat.first]
  second := by rw [pc_rounds, hstands (m.pc + 1) (by simp), hat.second]

theorem AtBlock.between {k : Nat} (hat : (Machine.rounds op dir k m).AtBlock op dir) :
    (m.between op dir k).AtBlock op dir :=
  ⟨hat.running, hat.first, hat.second⟩

/-- One step more, as long as the instruction stands. -/
theorem step_between {k : Nat} (hat : (rounds op dir k m).AtBlock op dir) :
    (m.between op dir k).step =
      { ((rounds op dir (k + 1) m).refreshed (2 * (k + 1))).setPc
          (if (rounds op dir k m).blockContinues op then m.pc else m.pc + 2) with
        cycles := if (rounds op dir k m).blockContinues op then 21 else 16 } := by
  have hpc : (m.between op dir k).pc = m.pc := pc_rounds m op dir k
  have hcontinues : (m.between op dir k).blockContinues op =
      (rounds op dir k m).blockContinues op := blockContinues_fetched _ op _ _ (rounds op dir k m).pc
  have hblock : (m.between op dir k).block op dir =
      { (rounds op dir (k + 1) m).refreshed (2 * k) with
        cycles := if k = 0 then m.cycles else 21 } := block_refreshed _ op dir _ _
  rw [step_of_running hat.between.running, hat.between.current, execute_block, hcontinues, hpc,
    hblock, Nat.mul_succ, ← refreshed_refreshed]
  rfl

/-- As long as the instruction stands and leaves work, steps are rounds. -/
theorem steps_of_standing {n : Nat} (hat : ∀ i < n, (rounds op dir i m).AtBlock op dir)
    (hmore : ∀ i, i + 1 < n → (rounds op dir i m).blockContinues op = true) :
    ∀ k < n, steps k m = m.between op dir k := by
  intro k
  induction k with
  | zero => exact fun _ => rfl
  | succ k ih =>
    intro hk
    have hpc : (rounds op dir (k + 1) m).regs.pc = m.pc := pc_rounds m op dir (k + 1)
    -- work is left, so the program counter is back on the instruction
    rw [steps_succ', ih (Nat.lt_of_succ_lt hk), step_between (hat k (Nat.lt_of_succ_lt hk)),
      hmore k hk, if_pos rfl, if_pos rfl, ← hpc]
    rfl

/-- The next `n` steps, and no more, execute the block instruction at the program counter,
    in 21 T-states each but 16 for the last.  Afterwards the machine stands behind the
    instruction, R has counted two fetches for each step, HL, DE and BC are where `n` rounds
    leave them, and of the other registers only F may have changed. -/
structure RunsBlock (m : Machine) (op : BlockOp) (dir : Direction) (n : Nat) : Prop where
  executes : ∀ i < n, (steps i m).pc = m.pc ∧
    (steps i m).current = ⟨.block op dir true, 2, true⟩ ∧
    (steps i m).tryStep = (steps (i + 1) m, .ok (if i + 1 = n then 16 else 21))
  regs : (steps n m).regs = { m.regs with
    main := { m.regs.main.moved (dir.along m.hl n) (op.pointer dir m.de n) (op.counter m.bc n) with
      f := (steps n m).flags }
    pc := m.pc + 2
    r := Registers.refreshed^[2 * n] m.regs.r }
  im : (steps n m).im = m.im
  halted : (steps n m).halted = m.halted

namespace RunsBlock

variable {n : Nat}

theorem pc (h : m.RunsBlock op dir n) : (steps n m).pc = m.pc + 2 :=
  congrArg Registers.pc h.regs

theorem r (h : m.RunsBlock op dir n) :
    (steps n m).regs.r = Registers.refreshed^[2 * n] m.regs.r :=
  congrArg Registers.r h.regs

theorem hl (h : m.RunsBlock op dir n) : (steps n m).hl = dir.along m.hl n := by
  rw [Machine.hl, h.regs]
  exact Word.ofBytes_hi_lo _

theorem de (h : m.RunsBlock op dir n) : (steps n m).de = op.pointer dir m.de n := by
  rw [Machine.de, h.regs]
  exact Word.ofBytes_hi_lo _

theorem bc (h : m.RunsBlock op dir n) : (steps n m).bc = op.counter m.bc n := by
  rw [Machine.bc, h.regs]
  exact Word.ofBytes_hi_lo _

end RunsBlock

/-- A run ends with the first round that leaves no work, if the instruction stands until
    then.  What it does to memory, the ports and F is what its rounds do. -/
theorem runsBlock {n : Nat} (hn : 0 < n) (hat : m.AtBlock op dir)
    (hstands : ∀ i < n, ∀ a ∈ [m.pc, m.pc + 1], (rounds op dir i m).mem.get a = m.mem.get a)
    (hcontinues : ∀ i < n, (rounds op dir i m).blockContinues op = (i + 1 != n)) :
    m.RunsBlock op dir n ∧ ∀ k ≤ n,
      (steps k m).mem = (rounds op dir k m).mem ∧
      (steps k m).ports = (rounds op dir k m).ports ∧
      (steps k m).flags = (rounds op dir k m).flags := by
  have hats : ∀ i < n, (rounds op dir i m).AtBlock op dir := fun i hi => hat.rounds (hstands i hi)
  have hsteps : ∀ k < n, steps k m = m.between op dir k := by
    refine steps_of_standing hats fun i hi => ?_
    rw [hcontinues i (Nat.lt_of_succ_lt hi)]
    exact bne_iff_ne.mpr (Nat.ne_of_lt hi)
  have hend : steps n m =
      { ((rounds op dir n m).refreshed (2 * n)).setPc (m.pc + 2) with cycles := 16 } := by
    -- the last round leaves no work, so the program counter goes on
    obtain ⟨k, rfl⟩ : ∃ k, n = k + 1 := Nat.exists_eq_add_one.mpr hn
    have hlast : (rounds op dir k m).blockContinues op = false := by
      rw [hcontinues k (Nat.lt_succ_self k), bne_self_eq_false]
    rw [steps_succ', hsteps k (Nat.lt_succ_self k), step_between (hats k (Nat.lt_succ_self k)),
      hlast]
    rfl
  have htime : ∀ i < n, (steps (i + 1) m).cycles = if i + 1 = n then 16 else 21 := by
    intro i hi
    obtain hlt | rfl := Nat.lt_or_eq_of_le (Nat.succ_le_of_lt hi)
    · rw [hsteps (i + 1) hlt, if_neg (Nat.ne_of_lt hlt)]
      rfl
    · rw [hend, if_pos rfl]
  refine ⟨⟨fun i hi => ?_, ?_, ?_, ?_⟩, fun k hk => ?_⟩
  · have hstanding : (steps i m).AtBlock op dir := by
      rw [hsteps i hi]
      exact (hats i hi).between
    have hfault : (steps i m).fault? = none := by
      rw [fault?, hstanding.current]
      exact ite_self _
    refine ⟨?_, hstanding.current, ?_⟩
    · rw [hsteps i hi]
      exact pc_rounds m op dir i
    · rw [tryStep, hfault, ← steps_succ', htime i hi]
  · have hregs : (rounds op dir n m).regs =
        { m.regs with main := (rounds op dir n m).regs.main } :=
      congrArg regs (rounds_frame m op dir n)
    rw [hend]
    show { (rounds op dir n m).regs with
      pc := m.pc + 2
      r := Registers.refreshed^[2 * n] (rounds op dir n m).regs.r } =
        { m.regs with
          main := { m.regs.main.moved (dir.along m.hl n) (op.pointer dir m.de n)
            (op.counter m.bc n) with f := (rounds op dir n m).flags }
          pc := m.pc + 2
          r := Registers.refreshed^[2 * n] m.regs.r }
    rw [← main_rounds, hregs]
  · rw [hend, rounds_frame]
    rfl
  · rw [hend, rounds_frame]
    rfl
  · obtain hlt | rfl := Nat.lt_or_eq_of_le hk
    · rw [hsteps k hlt]
      exact ⟨rfl, rfl, rfl⟩
    · rw [hend]
      exact ⟨rfl, rfl, rfl⟩

/-! ## Halted machines -/

/-- A halted machine idles for good and never gets behind the instruction it stands at. -/
theorem pc_steps_of_halted (h : m.halted = true) (n : Nat) : (steps n m).pc ≠ m.pc + 2 := by
  have hidle : (steps n m).pc = m.pc ∧ (steps n m).halted = true := by
    induction n with
    | zero => exact ⟨rfl, h⟩
    | succ n ih =>
      rw [steps_succ', step_of_halted ih.2]
      exact ih
  rw [hidle.1]
  grind

end Machine

end Z80
