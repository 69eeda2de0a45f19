/-
  Z80.Proofs.ExactSteps

  Steps of the arithmetic unit, from the tables.

  A step looks F up in tables of 65536 places each.  The places are filled once, from the
  bits of the operands, and what stands there is the F of exact arithmetic
  (`Checked.Tables.Complete.findsExact`).  A step with these lookups is the step of the machine,
  so it leaves the exact byte and the exact F, and nothing else but what the fetch moves
  (`step_exact`).
-/

import Z80.Proofs.Checked.Step

namespace Z80

namespace Checked.Tables

/-- Every lookup finds the F of exact arithmetic. -/
structure FindsExact (t : Tables) : Prop where
  add : ∀ a b carry, t.add? a b carry = some ((Exact.sum a b carry).flags false)
  sub : ∀ a b borrow, t.sub? a b borrow = some ((Exact.difference a b borrow).flags true)
  and : ∀ a b, t.and? a b = some (exactLogicFlags (a &&& b) true)
  or : ∀ a b, t.or? a b = some (exactLogicFlags (a ||| b) false)
  xor : ∀ a b, t.xor? a b = some (exactLogicFlags (a ^^^ b) false)

theorem Complete.findsExact {t : Tables} (h : t.Complete) : t.FindsExact where
  add a b carry := by rw [h.add, addFlags_eq_exact]
  sub a b borrow := by rw [h.sub, subFlags_eq_exact]
  and a b := by rw [h.and, logicFlags_eq_exact]
  or a b := by rw [h.or, logicFlags_eq_exact]
  xor a b := by rw [h.xor, logicFlags_eq_exact]

end Checked.Tables

namespace Machine

open Checked

/-- What the tables give for an operation on A is the exact byte and F. -/
theorem alu?_eq_exact (m : Machine) {t : Tables} (h : t.Complete) (op : AluOp) (v : Byte) :
    m.alu? t op v = some (m.setAf (op.exact m.a v m.flags.c).1 (op.exact m.a v m.flags.c).2) := by
  rw [m.alu?_eq h, alu, AluOp.apply_eq_exact]

/-- The arithmetic unit computes what exact integer arithmetic says, and so do its
    tables.  An instruction of the unit leaves in its operand and in F the exact
    byte and flags; no other register, memory cell or port changes beyond the program
    counter and R, which the fetch moves.  The tables can be generated, each place of them
    holds the F of exact arithmetic, and the step that looks F up there is this step. -/
theorem step_exact (m : Machine) :
    (m.halted = false → ∀ dst v f, m.current.instr.result? m = some (dst, v, f) →
      m.step.read dst = v ∧
      m.step.flags = f ∧
      (∀ o, o.isMemory = false → o ≠ dst → o ≠ .reg .f → m.step.read o = m.read o) ∧
      m.step.regs = { (m.fetch m.current).regs with
        main := m.step.regs.main, ix := m.step.regs.ix, iy := m.step.regs.iy } ∧
      m.step.im = m.im ∧ m.step.halted = m.halted ∧
      m.mem.SameOutside (m.address? dst).toList m.step.mem ∧
      m.step.ports = m.ports) ∧
    (∀ a b carry,
      (FlagTables.generate ()).addEntry a b carry = ((Exact.sum a b carry).flags false).toByte ∧
      (FlagTables.generate ()).subEntry a b carry =
        ((Exact.difference a b carry).flags true).toByte ∧
      (FlagTables.generate ()).andEntry a b = (exactLogicFlags (a &&& b) true).toByte ∧
      (FlagTables.generate ()).orEntry a b = (exactLogicFlags (a ||| b) false).toByte ∧
      (FlagTables.generate ()).xorEntry a b = (exactLogicFlags (a ^^^ b) false).toByte) ∧
    ∃ t, Tables.generate? = some t ∧ t.FindsExact ∧ m.step? t = some m.step ∧
      ∀ op v, m.alu? t op v =
        some (m.setAf (op.exact m.a v m.flags.c).1 (op.exact m.a v m.flags.c).2) := by
  obtain ⟨t, hgenerate, hcomplete⟩ := Tables.exists_generate
  refine ⟨fun hrun dst v f h => ?_, FlagTables.entries_exact, t, hgenerate, hcomplete.findsExact,
    m.step?_eq hcomplete, m.alu?_eq_exact hcomplete⟩
  -- F is written after the operand, so the operand must not be F itself
  have hf : dst ≠ .reg .f := result?_ne_f h
  have hstep : m.step = { (m.fetch m.current).replace dst v f with cycles := m.step.cycles } := by
    rw [step_of_running hrun, execute, effect_exact ((result?_fetch m _ _).trans h)]
  have hread (o : Operand) : m.step.read o = ((m.fetch m.current).replace dst v f).read o := by
    rw [hstep]
    cases o <;> rfl
  have hwrite (o : Operand) (ho : o ≠ .reg .f) :
      m.step.read o = ((m.fetch m.current).write dst v).read o :=
    (hread o).trans (read_setFlags _ f ho)
  refine ⟨?_, ?_, ?_, ?_, ?_, ?_, ?_, ?_⟩
  · exact (hwrite dst hf).trans (read_write_self _ dst v)
  · rw [hstep]
    rfl
  · intro o ho hne hof
    exact (hwrite o hof).trans ((read_write_of_ne _ v ho hne).trans (read_fetch m _ o))
  · rw [hstep]
    exact regs_replace _ dst v f
  · rw [hstep]
    exact (control_write _ dst v).1
  · rw [hstep]
    exact (control_write _ dst v).2
  · rw [hstep, ← address?_fetch m m.current]
    exact sameOutside_write_address (m.fetch m.current) dst v
  · rw [hstep]
    exact ports_replace _ dst v f

/-- ADC A,0 at power-on, with ones in A and the carry set: zero, and a carry out of
    both digits. -/
theorem step_exact_atCode :
    (atCode 0 [0xCE, 0x00]).step.read (.reg .a) = 0 ∧
    (atCode 0 [0xCE, 0x00]).step.flags = { z := true, h := true, c := true } ∧
    (atCode 0 [0xCE, 0x00]).step.regs.sp = 0xFFFF := by
  have hinstr : (atCode 0 [0xCE, 0x00]).current.instr = .aluByte .adc 0x00 := by
    simp [current, atCode, pc, Space.load, Space.get_set]
    rfl
  have hexact : (atCode 0 [0xCE, 0x00]).current.instr.result? (atCode 0 [0xCE, 0x00]) =
      some (.reg .a, 0, { z := true, h := true, c := true }) := by
    rw [hinstr]
    decide
  obtain ⟨ha, hf, -, hregs, -⟩ := (step_exact _).1 rfl _ _ _ hexact
  exact ⟨ha, hf, congrArg (·.sp) hregs⟩

/-- CP does not show the sign of its operand: 10h compared with 28h sets S, which is
    clear in 28h.  The program counter moves on. -/
theorem sign_of_compare :
    ((atCode 0 [0xFE, 0x28]).setA 0x10).current.instr = .aluByte .cp 0x28 ∧
    ((atCode 0 [0xFE, 0x28]).setA 0x10).halted = false ∧
    ((atCode 0 [0xFE, 0x28]).setA 0x10).step.flags.s ≠ Byte.bit 0x28 7 ∧
    ((atCode 0 [0xFE, 0x28]).setA 0x10).step.pc ≠ ((atCode 0 [0xFE, 0x28]).setA 0x10).pc := by
  have hcurrent : ((atCode 0 [0xFE, 0x28]).setA 0x10).current =
      ⟨.aluByte .cp 0x28, 2, false⟩ := by
    simp [current, atCode, pc, setA, Space.load, Space.get_set]
    rfl
  refine ⟨by rw [hcurrent], rfl, ?_, ?_⟩
  · rw [step_of_running rfl, execute, hcurrent]
    decide
  · rw [step_of_running rfl, execute, hcurrent]
    decide

end Machine

end Z80
