/-
  Z80.Proofs.Timing

  How long a step takes.

  The T-states of an instruction are those of its encoding and, for five kinds of
  instructions, a surcharge when its branch is taken or its block goes on
  (`cycles_step_of_running`).  Neither immediate bytes nor operands matter
  (`Instr.tail_withBytes`, `Instr.tail_taken`), so two machines before the same four bytes
  take the same time unless one of them takes the branch (`cycles_step_same_code`).
-/

import Z80.Proofs.ControlFlow

namespace Z80

/-! ## Operands -/

/-- A displacement does not matter to the time of an operand. -/
theorem Operand.time_withDisp (o : Operand) (d : Int8) (register cell displaced : Nat) :
    (o.withDisp d).time register cell displaced = o.time register cell displaced := by
  cases o <;> rfl

theorem Operand.time_le {o : Operand} {register cell displaced n : Nat} (hregister : register ≤ n)
    (hcell : cell ≤ n) (hdisplaced : displaced ≤ n) : o.time register cell displaced ≤ n := by
  cases o <;> assumption

/-! ## Branches -/

namespace Flow

/-- The T-states that an instruction takes more when its branch is taken or its block goes
    on: JR cc, DJNZ and the repeating block instructions five, CALL cc seven and RET cc six. -/
def surcharge : Flow → Nat
  | relative (some _) | countdown | again _ => 5
  | call (some _) => 7
  | ret (some _) => 6
  | _ => 0

/-- Whether the branch of an instruction is taken or its block goes on. -/
def taken (f : Flow) (m : Machine) : Bool :=
  match f with
  | jump cc? | relative cc? | call cc? | ret cc? => Instr.condHolds cc? m.flags
  | countdown => m.reg .b != 1
  | again op => m.repeats op
  | restart _ | register _ => true
  | .next => false

/-- Whether a branch is taken without a condition. -/
def forced : Flow → Bool
  | jump none | relative none | call none | ret none | restart _ | register _ => true
  | _ => false

/-- A branch that is not taken leads to the next instruction. -/
theorem target_of_not_taken {f : Flow} {m : Machine} (h : f.taken m = false)
    (start next : Word) (n₁ n₂ : Byte) : f.target m start next n₁ n₂ = next := by
  cases f with
  | next => rfl
  | restart p => cases h
  | register rr => cases h
  | _ => exact if_neg (Bool.eq_false_iff.mp h)

end Flow

namespace Instr

/-- Immediate bytes do not matter to the time of an instruction. -/
theorem tail_withBytes (i : Instr) (n₁ n₂ : Byte) (taken : Bool) :
    (i.withBytes n₁ n₂).tail taken = i.tail taken := by
  cases i
  case ret cc? => rfl
  case unimplemented o => cases o <;> rfl
  all_goals simp only [withBytes, tail, Operand.time_withDisp]

theorem taken_withBytes (i : Instr) (n₁ n₂ : Byte) (m : Machine) :
    (i.withBytes n₁ n₂).taken m = i.taken m := by
  cases i with
  | unimplemented o => cases o <;> rfl
  | _ => rfl

/-- A conditional instruction takes its surcharge when its branch is taken; what another
    instruction does makes no difference to its time. -/
theorem tail_taken (i : Instr) (m : Machine) :
    i.tail (i.taken m) =
      i.tail i.flow.forced + if i.flow.taken m then i.flow.surcharge else 0 := by
  cases i
  case jr cc? d =>
    cases cc? with
    | none => rfl
    | some cc =>
      show (if cc.holds m.flags then 8 else 3) = 3 + if cc.holds m.flags then 5 else 0
      cases cc.holds m.flags <;> rfl
  case djnz d =>
    show (if m.reg .b - 1 != 0 then 9 else 4) = 4 + if m.reg .b != 1 then 5 else 0
    rw [Byte.sub_one_bne_zero]
    cases m.reg .b != 1 <;> rfl
  case call cc? nn =>
    cases cc? with
    | none => rfl
    | some cc =>
      show (if cc.holds m.flags then 13 else 6) = 6 + if cc.holds m.flags then 7 else 0
      cases cc.holds m.flags <;> rfl
  case ret cc? =>
    cases cc? with
    | none => rfl
    | some cc =>
      show (if cc.holds m.flags then 7 else 1) = 1 + if cc.holds m.flags then 6 else 0
      cases cc.holds m.flags <;> rfl
  case block op dir repeats =>
    cases repeats with
    | false => rfl
    | true =>
      show (if m.blockContinues op then 13 else 8) = 8 + if m.repeats op then 5 else 0
      rw [Machine.blockContinues_eq_repeats]
      cases m.repeats op <;> rfl
  case jp cc? nn =>
    show 6 = 6 + if condHolds cc? m.flags then 0 else 0
    rw [ite_self]
  case unimplemented opcode => cases opcode <;> rfl
  all_goals rfl

theorem tail_le (i : Instr) (taken : Bool) : i.tail taken ≤ 15 := by
  cases i with
  | ld dst src =>
    exact Nat.max_le.mpr ⟨Operand.time_le (by decide) (by decide) (by decide),
      Operand.time_le (by decide) (by decide) (by decide)⟩
  | ldByte dst n => exact Operand.time_le (by decide) (by decide) (by decide)
  | alu op src => exact Operand.time_le (by decide) (by decide) (by decide)
  | inc dst => exact Operand.time_le (by decide) (by decide) (by decide)
  | dec dst => exact Operand.time_le (by decide) (by decide) (by decide)
  | rot op target copy => exact Operand.time_le (by decide) (by decide) (by decide)
  | res n target copy => exact Operand.time_le (by decide) (by decide) (by decide)
  | set n target copy => exact Operand.time_le (by decide) (by decide) (by decide)
  | bit n src => exact Operand.time_le (by decide) (by decide) (by decide)
  | ret cc? => cases cc? <;> cases taken <;> exact Nat.le_of_ble_eq_true rfl
  | unimplemented opcode => cases opcode <;> exact Nat.le_of_ble_eq_true rfl
  | _ => cases taken <;> exact Nat.le_of_ble_eq_true rfl

end Instr

/-! ## Steps -/

/-- The T-states of an encoding, without the surcharge of a branch that is taken. -/
def Encoding.time (e : Encoding) : Nat :=
  let d := e.page.template e.op
  Machine.fetchTime d + d.instr.tail e.flow.forced

namespace Machine

/-- Whether the instruction at the program counter takes its branch or goes on with its
    block. -/
def branches (m : Machine) : Bool :=
  m.encoding.flow.taken m

theorem taken_fetch (m : Machine) (d : Decoded) (f : Flow) : f.taken (m.fetch d) = f.taken m := by
  cases f with
  | again op => cases op <;> rfl
  | _ => rfl

theorem fetchTime_le (d : Decoded) : fetchTime d ≤ 8 := by
  unfold fetchTime
  split <;> decide

theorem le_fetchTime (d : Decoded) : 4 ≤ fetchTime d := by
  unfold fetchTime
  split <;> decide

/-- No step takes less than 4 T-states. -/
theorem le_cycles_step (m : Machine) : 4 ≤ m.step.cycles := by
  cases h : m.halted with
  | true =>
    rw [step_of_halted h]
    exact Nat.le_refl 4
  | false =>
    rw [step_of_running h]
    exact Nat.le_add_right_of_le (le_fetchTime m.current)

/-- No step takes more than 23 T-states. -/
theorem cycles_step_le (m : Machine) : m.step.cycles ≤ 23 := by
  cases h : m.halted with
  | true =>
    rw [step_of_halted h]
    exact (by decide : 4 ≤ 23)
  | false =>
    have hfetch := fetchTime_le m.current
    have htail := m.current.instr.tail_le (m.current.instr.taken (m.fetch m.current))
    rw [step_of_running h]
    exact Nat.add_le_add hfetch htail

/-- A step takes the time of its encoding, and the surcharge if it branches. -/
theorem cycles_step_of_running {m : Machine} (h : m.halted = false) :
    m.step.cycles = m.encoding.time + if m.branches then m.encoding.flow.surcharge else 0 := by
  have hflow : m.template.instr.flow = m.encoding.flow :=
    (Page.template_flow m.encoding.page m.encoding.op).2
  rw [step_eq_effect h]
  dsimp only
  rw [instr, Instr.tail_withBytes, Instr.taken_withBytes, Instr.tail_taken, hflow, fetched,
    taken_fetch, ← Nat.add_assoc]
  rfl

/-- The encoding is read off the four bytes at the program counter. -/
theorem encoding_of_slice {m k : Machine} (h : k.mem.slice k.pc 4 = m.mem.slice m.pc 4) :
    k.encoding = m.encoding := by
  have hsecond (a : Word) : a + 1 + 1 = a + 2 := by grind
  have hthird (a : Word) : a + 2 + 1 = a + 3 := by grind
  simp only [Space.slice, List.cons.injEq, hsecond, hthird] at h
  obtain ⟨h₀, h₁, h₂, h₃, -⟩ := h
  rw [encoding, encoding, h₀, h₁, h₂, h₃]

/-- The time of the last instruction does not show in the time of the next. -/
theorem cycles_step_withCycles (m : Machine) (c : Nat) :
    ({ m with cycles := c }).step.cycles = m.step.cycles := by
  have htaken (f : Flow) : f.taken { m with cycles := c } = f.taken m := by
    cases f with
    | again op => cases op <;> rfl
    | _ => rfl
  obtain h | h := Bool.eq_false_or_eq_true m.halted
  · have h' : ({ m with cycles := c }).halted = true := h
    rw [step_of_halted h, step_of_halted h']
    rfl
  · have h' : ({ m with cycles := c }).halted = false := h
    rw [cycles_step_of_running h, cycles_step_of_running h', branches, htaken]
    rfl

/-- A step takes 4 to 23 T-states, whatever the last one took.  Two machines that are not
    halted, with the same four bytes at their program counters, take the same time, but for
    the surcharge of JR cc, DJNZ, CALL cc, RET cc and the repeating block instructions, when
    one of them takes the branch or goes on with the block and the other does not. -/
theorem cycles_step_same_code (m k : Machine) :
    (4 ≤ m.step.cycles ∧ m.step.cycles ≤ 23) ∧
    (∀ c, ({ m with cycles := c }).step.cycles = m.step.cycles) ∧
    (m.halted = false → k.halted = false → k.mem.slice k.pc 4 = m.mem.slice m.pc 4 →
      (m.encoding.flow.surcharge = 0 → k.step.cycles = m.step.cycles) ∧
      (k.branches = m.branches → k.step.cycles = m.step.cycles) ∧
      (m.branches = true → k.branches = false →
        m.step.cycles = k.step.cycles + m.encoding.flow.surcharge)) := by
  refine ⟨⟨m.le_cycles_step, m.cycles_step_le⟩, m.cycles_step_withCycles, fun hm hk hcode => ?_⟩
  rw [cycles_step_of_running hm, cycles_step_of_running hk, encoding_of_slice hcode]
  refine ⟨fun hnone => ?_, fun hsame => ?_, fun htaken hnot => ?_⟩
  · simp only [hnone, ite_self]
  · rw [hsame]
  · rw [htaken, hnot]
    rfl

/-- JR NZ takes five T-states more when Z is reset than when it is set. -/
theorem cycles_step_same_code_jr :
    let k := atCode 0 [0x20, 0x05]
    (k.setFlags {}).step.cycles = k.step.cycles + 5 := by
  intro k
  have hencoding : k.encoding = ⟨.main none, 0x20, 0x05, 0⟩ := by
    simp [k, atCode, encoding, pc, Space.load, Space.get_set, Encoding.ofBytes, Index.code]
  have hreset : (k.setFlags {}).encoding = _ := hencoding
  obtain ⟨-, -, hpair⟩ := cycles_step_same_code (k.setFlags {}) k
  obtain ⟨-, -, htaken⟩ := hpair rfl rfl rfl
  rw [hreset] at htaken
  refine htaken ?_ ?_
  · rw [branches, hreset]
    rfl
  · rw [branches, hencoding]
    decide

end Machine

end Z80
