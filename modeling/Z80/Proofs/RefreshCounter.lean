/-
  Z80.Proofs.RefreshCounter

  R beside the instructions, and over runs of them.

  Fetches count in R, and only LD R,A and LD A,R name it, which are on the ED page: every
  other instruction leaves R as it is and does the same whatever R holds (`effect_withR`).
  So fetches that R has counted before are counted after all the same (`tryStep_refreshed`).

  How many fetches an instruction has is listed by its first two bytes (`Encoding.refreshes`).
  The main statement is `refresh_law`: over any run without LD R,A the low seven bits of R
  count the fetches of the steps.
-/

import Mathlib.Logic.Function.Iterate
import Z80.Proofs.Encoding

namespace Z80

/-- Whether an instruction reads or writes R. -/
def Instr.namesR : Instr → Bool
  | ldRA | ldAR => true
  | _ => false

theorem Instr.namesR_withBytes (i : Instr) (n₁ n₂ : Byte) :
    (i.withBytes n₁ n₂).namesR = i.namesR := by
  cases i with
  | unimplemented opcode => cases opcode <;> rfl
  | _ => rfl

/-- The instructions that name R are behind ED. -/
theorem Page.eq_ed_of_namesR (p : Page) (op : Byte) :
    (p.template op).instr.namesR = true → p = ed := by
  revert p op
  exact forall_opcode (by decide +kernel)

namespace Machine

/-- The machine with R replaced. -/
def withR (m : Machine) (r : Byte) : Machine :=
  { m with regs.r := r }

variable (m : Machine) (r : Byte)

/-! ## Operations -/

@[simp] theorem flags_withR : (m.withR r).flags = m.flags := rfl

@[simp] theorem top_withR : (m.withR r).top = m.top := rfl

@[simp] theorem mem_withR : (m.withR r).mem = m.mem := rfl

@[simp] theorem sp_withR : (m.withR r).regs.sp = m.regs.sp := rfl

@[simp] theorem drop_withR : (m.withR r).drop = m.drop.withR r := rfl

@[simp] theorem read_withR (o : Operand) : (m.withR r).read o = m.read o := by
  cases o with
  | high x => cases x <;> rfl
  | low x => cases x <;> rfl
  | indexed x d => cases x <;> rfl
  | _ => rfl

@[simp] theorem write_withR (o : Operand) (v : Byte) :
    (m.withR r).write o v = (m.write o v).withR r := by
  cases o with
  | high x => cases x <;> rfl
  | low x => cases x <;> rfl
  | indexed x d => cases x <;> rfl
  | _ => rfl

@[simp] theorem address?_withR (o : Operand) : (m.withR r).address? o = m.address? o := by
  cases o with
  | indexed x d => cases x <;> rfl
  | _ => rfl

@[simp] theorem pair_withR (rr : Pair) : (m.withR r).pair rr = m.pair rr := by
  cases rr with
  | index x => cases x <;> rfl
  | _ => rfl

@[simp] theorem setPair_withR (rr : Pair) (w : Word) :
    (m.withR r).setPair rr w = (m.setPair rr w).withR r := by
  cases rr with
  | index x => cases x <;> rfl
  | _ => rfl

@[simp] theorem push_withR (w : Word) : (m.withR r).push w = (m.push w).withR r := rfl

@[simp] theorem storeWord_withR (a w : Word) :
    (m.withR r).storeWord a w = (m.storeWord a w).withR r := rfl

@[simp] theorem setFlags_withR (f : Flags) :
    (m.withR r).setFlags f = (m.setFlags f).withR r := rfl

@[simp] theorem setPc_withR (w : Word) : (m.withR r).setPc w = (m.setPc w).withR r := rfl

@[simp] theorem alu_withR (op : AluOp) (v : Byte) :
    (m.withR r).alu op v = (m.alu op v).withR r := rfl

@[simp] theorem copyTo_withR (r? : Option Reg8) (v : Byte) :
    (m.withR r).copyTo r? v = (m.copyTo r? v).withR r := by
  cases r? <;> rfl

@[simp] theorem jumpIf_withR (taken : Bool) (w : Word) :
    (m.withR r).jumpIf taken w = (m.jumpIf taken w).withR r := by
  cases taken <;> rfl

/-! ## Instructions -/

/-- An instruction that does not name R does the same whatever R holds, and leaves it. -/
theorem effect_withR {i : Instr} (h : i.namesR = false) (taken : Bool) :
    i.effect taken (m.withR r) = (i.effect taken m).withR r := by
  cases i with
  | ldRA => cases h
  | ldAR => cases h
  | call cc? nn => cases taken <;> rfl
  | ret cc? => cases taken <;> rfl
  | jp cc? nn => exact jumpIf_withR m r taken nn
  | jr cc? d => exact jumpIf_withR m r taken _
  | djnz d => exact jumpIf_withR (m.setReg .b (m.reg .b - 1)) r taken _
  | block op dir repeats =>
    have hblock : (m.withR r).block op dir = (m.block op dir).withR r := by
      cases op <;> rfl
    show ((m.withR r).block op dir).jumpIf taken (m.pc - 2) = _
    rw [hblock, jumpIf_withR]
    rfl
  | adcHl src =>
    show ((m.withR r).setFlags _).setPair (.bank .hl) _ = _
    simp only [pair_withR]
    rfl
  | sbcHl src =>
    show ((m.withR r).setFlags _).setPair (.bank .hl) _ = _
    simp only [pair_withR]
    rfl
  | ld | ldByte | ldWord | ldPairFrom | ldPairTo | ldSp | push | pop | exSp | alu | inc | dec
  | addPair | incPair | decPair | rot | bit | res | set | jpPair =>
    simp [Instr.effect, rotate, replace]
  | _ => rfl

theorem taken_withR (i : Instr) : i.taken (m.withR r) = i.taken m := by
  cases i with
  | block op dir repeats => cases op <;> rfl
  | _ => rfl

/-- An instruction that does not name R leaves it as it is. -/
theorem r_effect {i : Instr} (h : i.namesR = false) (taken : Bool) :
    (i.effect taken m).regs.r = m.regs.r := by
  have hsame := effect_withR m m.regs.r h taken
  have hself : m.withR m.regs.r = m := rfl
  rw [hself] at hsame
  rw [hsame]
  rfl

/-! ## Fetches counted before a step -/

/-- The machine when R has counted `n` fetches more. -/
def refreshed (n : Nat) : Machine :=
  m.withR (Registers.refreshed^[n] m.regs.r)

theorem fetch_refreshed (n : Nat) (d : Decoded) :
    (m.refreshed n).fetch d = (m.fetch d).refreshed n := by
  have hcount (k : Nat) : Registers.refreshed^[k] (Registers.refreshed^[n] m.regs.r) =
      Registers.refreshed^[n] (Registers.refreshed^[k] m.regs.r) := by
    rw [← Function.iterate_add_apply, ← Function.iterate_add_apply, Nat.add_comm]
  unfold fetch
  cases d.prefixed
  · exact congrArg ({ m with regs.pc := m.regs.pc + d.size.toUInt16 }).withR (hcount 1)
  · exact congrArg ({ m with regs.pc := m.regs.pc + d.size.toUInt16 }).withR (hcount 2)

theorem execute_refreshed {d : Decoded} (h : d.instr.namesR = false) (n : Nat) :
    (m.refreshed n).execute d = (m.execute d).refreshed n := by
  rw [execute, fetch_refreshed, refreshed, taken_withR, effect_withR _ _ h, execute, refreshed,
    r_effect _ h]
  rfl

variable {m}

/-- In front of an instruction that does not name R, what R has counted before makes no
    other difference. -/
theorem tryStep_refreshed (hrunning : m.halted = false) (h : m.current.instr.namesR = false)
    (n : Nat) : (m.refreshed n).tryStep = (m.step.refreshed n, m.tryStep.2) := by
  have hrunning' : (m.refreshed n).halted = false := hrunning
  have hstep : (m.refreshed n).step = m.step.refreshed n := by
    rw [step_of_running hrunning, step_of_running hrunning', ← execute_refreshed m h]
    rfl
  have hfault : (m.refreshed n).fault? = m.fault? := rfl
  simp only [tryStep, hfault, hstep]
  rfl

end Machine

/-! ## The opcode fetches of an instruction -/

/-- The opcode fetches that R counts for an instruction, by its first two bytes: two behind a
    prefix, and one without or when the prefix idles in front of another. -/
def Encoding.refreshes (b₀ b₁ : Byte) : Nat :=
  if b₀ = 0xCB ∨ b₀ = 0xED then 2
  else if b₀ = 0xDD ∨ b₀ = 0xFD then if b₁ = 0xDD ∨ b₁ = 0xFD ∨ b₁ = 0xED then 1 else 2
  else 1

theorem Decode.prefixed_indexed (x : Index) (b₁ b₂ b₃ : Byte) :
    (indexed x b₁ b₂ b₃).prefixed = !decide (b₁ = 0xDD ∨ b₁ = 0xFD ∨ b₁ = 0xED) := by
  unfold indexed
  split
  case h_1 => rfl
  case h_2 => rfl
  case h_3 => rfl
  case h_4 => rfl
  case h_5 hdd hfd hed hcb =>
    rw [decide_eq_false]
    · rfl
    · rintro (h | h | h)
      · exact hdd h
      · exact hfd h
      · exact hed h

/-- The decoder fetches a second opcode where two are listed. -/
theorem refreshes_decode (b₀ b₁ b₂ b₃ : Byte) :
    Encoding.refreshes b₀ b₁ = if (decode b₀ b₁ b₂ b₃).prefixed then 2 else 1 := by
  unfold decode
  split
  case h_1 => rfl
  case h_2 =>
    rw [Decode.prefixed_indexed]
    by_cases h : b₁ = 0xDD ∨ b₁ = 0xFD ∨ b₁ = 0xED <;> simp [Encoding.refreshes, h]
  case h_3 =>
    rw [Decode.prefixed_indexed]
    by_cases h : b₁ = 0xDD ∨ b₁ = 0xFD ∨ b₁ = 0xED <;> simp [Encoding.refreshes, h]
  case h_4 => rfl
  case h_5 hcb hdd hfd hed =>
    rw [Encoding.refreshes, if_neg (not_or.mpr ⟨hcb, hed⟩), if_neg (not_or.mpr ⟨hdd, hfd⟩)]
    rfl

/-! ## Counting -/

namespace Registers

theorem bit_seven_iterate (n : Nat) (r : Byte) : (refreshed^[n] r).bit 7 = r.bit 7 := by
  induction n with
  | zero => rfl
  | succ n ih => rw [Function.iterate_succ_apply', bit_seven_refreshed, ih]

theorem iterate_mod (n : Nat) (r : Byte) :
    (refreshed^[n] r).toNat % 128 = (r.toNat + n) % 128 := by
  induction n with
  | zero => rfl
  | succ n ih =>
    rw [Function.iterate_succ_apply', refreshed_mod]
    omega

end Registers

/-! ## Steps -/

namespace Machine

variable {m : Machine}

/-- The opcode fetches of the next step; a halted machine fetches one opcode that it does not
    execute. -/
def refreshes (m : Machine) : Nat :=
  if m.halted then 1 else Encoding.refreshes (m.mem.get m.pc) (m.mem.get (m.pc + 1))

/-- The opcode fetches of a number of steps together. -/
def stepsRefreshes : Nat → Machine → Nat
  | 0, _ => 0
  | n + 1, m => m.refreshes + stepsRefreshes n m.step

/-- The instruction that the next step executes, if it executes one. -/
def next? (m : Machine) : Option Instr :=
  if m.halted then none else some m.current.instr

theorem next?_eq_some {i : Instr} :
    m.next? = some i ↔ m.halted = false ∧ m.current.instr = i := by
  unfold next?
  cases m.halted <;> simp

/-! ## R over a run -/

/-- Only LD R,A has an effect on R. -/
theorem r_effect_of_ne {i : Instr} (h : i ≠ .ldRA) (taken : Bool) (m : Machine) :
    (i.effect taken m).regs.r = m.regs.r := by
  by_cases hread : i = .ldAR
  · rw [hread]
    rfl
  · refine r_effect m ?_ taken
    cases i with
    | ldRA => exact absurd rfl h
    | ldAR => exact absurd rfl hread
    | _ => rfl

/-- LD R,A and LD A,R stand behind ED. -/
theorem prefixed_of_namesR (h : m.current.instr.namesR = true) : m.current.prefixed = true := by
  rw [current_eq_withBytes] at h ⊢
  rw [Instr.namesR_withBytes] at h
  have hed : m.encoding.page = .ed := Page.eq_ed_of_namesR _ _ h
  rw [template, hed]
  rfl

theorem refreshes_of_running (h : m.halted = false) :
    m.refreshes = if m.current.prefixed then 2 else 1 := by
  rw [refreshes, if_neg (by simp [h])]
  exact refreshes_decode _ _ _ _

theorem r_fetch (h : m.halted = false) :
    (m.fetch m.current).regs.r = Registers.refreshed^[m.refreshes] m.regs.r := by
  rw [refreshes_of_running h, fetch]
  cases m.current.prefixed <;> rfl

/-- A step that does not execute LD R,A counts its opcode fetches in R. -/
theorem r_step (h : m.next? ≠ some .ldRA) :
    m.step.regs.r = Registers.refreshed^[m.refreshes] m.regs.r := by
  cases hhalted : m.halted with
  | true =>
    rw [step_of_halted hhalted, refreshes, hhalted]
    rfl
  | false =>
    have hne : m.current.instr ≠ .ldRA := fun hinstr => h (next?_eq_some.mpr ⟨hhalted, hinstr⟩)
    rw [step_of_running hhalted, ← r_fetch hhalted]
    exact r_effect_of_ne hne _ _

theorem r_steps (n : Nat) (m : Machine) (h : ∀ i < n, (steps i m).next? ≠ some .ldRA) :
    (steps n m).regs.r = Registers.refreshed^[stepsRefreshes n m] m.regs.r := by
  induction n generalizing m with
  | zero => rfl
  | succ n ih =>
    have hrest := ih m.step fun i hi => h (i + 1) (Nat.succ_lt_succ hi)
    have hfirst : m.step.regs.r = Registers.refreshed^[m.refreshes] m.regs.r :=
      r_step (h 0 (Nat.succ_pos n))
    rw [steps, hrest, hfirst, ← Function.iterate_add_apply, Nat.add_comm]
    rfl

end Machine

/-- R over any run from any machine.  While no LD R,A is executed, bit 7 stays and the low
    seven bits count the opcode fetches of the steps.  LD R,A leaves what A holds, whatever R
    has counted, and LD A,R takes the value that R has after both of its own fetches. -/
theorem Machine.refresh_law (m : Machine) :
    (∀ n, (∀ i < n, (steps i m).next? ≠ some .ldRA) →
      (steps n m).regs.r.bit 7 = m.regs.r.bit 7 ∧
      (steps n m).regs.r.toNat % 128 = (m.regs.r.toNat + stepsRefreshes n m) % 128) ∧
    (m.next? = some .ldRA → m.step.regs.r = m.a) ∧
    (m.next? = some .ldAR → m.step.a = m.step.regs.r ∧
      m.step.regs.r = Registers.refreshed (Registers.refreshed m.regs.r)) := by
  refine ⟨fun n h => ?_, fun h => ?_, fun h => ?_⟩
  · rw [r_steps n m h]
    exact ⟨Registers.bit_seven_iterate _ _, Registers.iterate_mod _ _⟩
  · obtain ⟨hrunning, hinstr⟩ := next?_eq_some.mp h
    rw [step_of_running hrunning, execute, hinstr]
    rfl
  · obtain ⟨hrunning, hinstr⟩ := next?_eq_some.mp h
    have hr : m.step.regs.r = Registers.refreshed^[m.refreshes] m.regs.r :=
      r_step (by rw [h]; simp)
    constructor
    · rw [step_of_running hrunning, execute, hinstr]
      rfl
    · have hprefixed : m.current.prefixed = true := prefixed_of_namesR (by rw [hinstr]; rfl)
      rw [hr, refreshes_of_running hrunning, if_pos hprefixed]
      rfl

/-- HALT and two idle steps take R from FFh past the end of its low bits to 82h; LD R,A and
    LD A,R behind it. -/
theorem Machine.refresh_law_atCode :
    let m := (atCode 0 [0x76]).withR 0xFF
    ((steps 3 m).regs.r.bit 7 = true ∧ (steps 3 m).regs.r.toNat % 128 = 2) ∧
    (atCode 0 [0xED, 0x4F]).step.regs.r = 0xFF ∧ (atCode 0 [0xED, 0x5F]).step.a = 2 := by
  have hload : (atCode 0 [0xED, 0x4F]).next? = some .ldRA := by
    simp [atCode, next?, current, pc, initial, Space.load, Space.get_set]
    rfl
  have hread : (atCode 0 [0xED, 0x5F]).next? = some .ldAR := by
    simp [atCode, next?, current, pc, initial, Space.load, Space.get_set]
    rfl
  obtain ⟨hstep, hr⟩ := (refresh_law (atCode 0 [0xED, 0x5F])).2.2 hread
  intro m
  refine ⟨?_, (refresh_law _).2.1 hload, (hstep.trans hr).trans (by decide)⟩
  have hcurrent : m.current = ⟨.halt, 1, false⟩ := by
    simp [m, withR, atCode, current, pc, initial, Space.load, Space.get_set]
    rfl
  have hidle : m.step.halted = true := by
    rw [step_of_running rfl, hcurrent]
    rfl
  have hidle' : m.step.step.halted = true := by
    rw [step_of_halted hidle]
    exact hidle
  have hrun := (refresh_law m).1 3 fun i hi => by
    obtain rfl | rfl | rfl : i = 0 ∨ i = 1 ∨ i = 2 := by omega
    · simp [steps, next?_eq_some, hcurrent]
    · simp [steps, next?_eq_some, hidle]
    · simp [steps, next?_eq_some, hidle']
  have hcount : stepsRefreshes 3 m = 3 := by
    have hfirst : m.refreshes = 1 := by
      rw [refreshes_of_running rfl, hcurrent]
      rfl
    have hsecond : m.step.refreshes = 1 := if_pos hidle
    have hthird : m.step.step.refreshes = 1 := if_pos hidle'
    simp only [stepsRefreshes, hfirst, hsecond, hthird]
  rw [hcount] at hrun
  exact ⟨hrun.1.trans (by decide), hrun.2.trans (by decide)⟩

end Z80
