/-
  Z80.Proofs.BlockSearch

  CPIR and CPDR.

  A search compares A with one cell after the other and ends with the first one that holds
  it, or with the BC-th (`Machine.searchLength`, least by `isLeast_searchLength`).  It only
  reads, so every round finds the cells as they were.  The main statement is
  `runsBlock_compare`: how often the instruction is executed and what it leaves.
-/

import Mathlib.Order.Bounds.Basic
import Z80.Proofs.BlockRuns

namespace Z80

namespace Machine

variable (m : Machine) (dir : Direction)

/-! ## The first cell that holds A -/

/-- The cells that a search from HL on looks at: as many as it takes to meet one that holds
    A, and BC of them if there is none. -/
def searchLength : Nat :=
  match (List.range m.bc.turns).find? fun i => m.mem.get (dir.along m.hl i) == m.a with
  | some i => i + 1
  | none => m.bc.turns

theorem isLeast_searchLength :
    IsLeast {n | 0 < n ∧ (m.mem.get (dir.along m.hl (n - 1)) = m.a ∨ n = m.bc.turns)}
      (m.searchLength dir) := by
  unfold searchLength
  split
  case h_1 i hfound =>
    obtain ⟨hi, -, hfirst⟩ := List.find?_range_eq_some.mp hfound
    have hlt : i < m.bc.turns := List.mem_range.mp (List.mem_of_find?_eq_some hfound)
    refine ⟨⟨Nat.succ_pos i, .inl (beq_iff_eq.mp hi)⟩, ?_⟩
    rintro n ⟨hn, hcell | hall⟩
    · -- a shorter search would have met the cell before
      refine Nat.le_of_not_lt fun hshort => ?_
      have hmissed := hfirst (n - 1) (by omega)
      rw [hcell, beq_self_eq_true] at hmissed
      cases hmissed
    · omega
  case h_2 hnone =>
    refine ⟨⟨m.bc.turns_pos, .inr rfl⟩, ?_⟩
    rintro n ⟨hn, hcell | hall⟩
    · refine Nat.le_of_not_lt fun hshort => ?_
      have hmissed := List.find?_eq_none.mp hnone (n - 1) (List.mem_range.mpr (by omega))
      exact hmissed (beq_iff_eq.mpr hcell)
    · exact Nat.le_of_eq hall.symm

theorem searchLength_le : m.searchLength dir ≤ m.bc.turns :=
  (m.isLeast_searchLength dir).2 ⟨m.bc.turns_pos, .inr rfl⟩

/-! ## Rounds -/

/-- Z shows whether the cell holds the accumulator. -/
theorem z_subFlags (a v : Byte) : (subFlags a v false).z = (v == a) := by
  have hdifference : subByte a v false = a - v := UInt8.sub_zero _
  show (subByte a v false == 0) = (v == a)
  have hzero : a - v = 0 ↔ v = a := by grind
  rw [hdifference, Bool.eq_iff_iff, beq_iff_eq, beq_iff_eq, hzero]

/-- A round of a search compares one cell: Z shows whether it holds A and P/V whether BC is
    zero, and C is kept. -/
theorem flags_rounds_compare (n : Nat) :
    let f := (rounds .compare dir (n + 1) m).flags
    f.z = (m.mem.get (dir.along m.hl n) == m.a) ∧ f.pv = (m.bc - (n + 1).toUInt16 != 0) ∧
      f.n = true ∧ f.c = m.flags.c := by
  have hround (k : Nat) : (rounds .compare dir (k + 1) m).flags =
      blockCompareFlags m.a (m.mem.get (dir.along m.hl k)) (m.bc - (k + 1).toUInt16)
        (rounds .compare dir k m).flags := by
    have hcount : (rounds .compare dir k m).bc - 1 = m.bc - (k + 1).toUInt16 := by
      rw [bc_rounds, Word.sub_succ]
      rfl
    rw [← hcount, ← a_rounds m .compare dir k, ← hl_rounds m .compare dir k,
      ← mem_rounds m dir (.inl rfl) k]
    rfl
  have hcarry : (rounds .compare dir n m).flags.c = m.flags.c := by
    induction n with
    | zero => rfl
    | succ n ih =>
      rw [hround]
      exact ih
  dsimp only
  rw [hround]
  exact ⟨z_subFlags _ _, rfl, rfl, hcarry⟩

theorem blockContinues_rounds_compare {i : Nat} (hi : i < m.searchLength dir) :
    (rounds .compare dir i m).blockContinues .compare = (i + 1 != m.searchLength dir) := by
  have hturns : i < m.bc.turns := Nat.lt_of_lt_of_le hi (m.searchLength_le dir)
  obtain ⟨⟨-, hend⟩, hleast⟩ := m.isLeast_searchLength dir
  rw [blockContinues, bc_rounds, a_rounds, mem_rounds m dir (.inl rfl), hl_rounds]
  dsimp only [BlockOp.counter]
  rw [m.bc.counted hturns, Bool.eq_iff_iff, Bool.and_eq_true, bne_iff_ne, bne_iff_ne, bne_iff_ne]
  constructor
  · rintro ⟨hlast, hcell⟩ hlength
    rw [← hlength] at hend
    exact hend.elim (fun h => hcell h.symm) hlast
  · intro hlength
    refine ⟨fun hlast => ?_, fun hcell => ?_⟩
    · have := hleast ⟨Nat.succ_pos i, .inr hlast⟩
      omega
    · have := hleast ⟨Nat.succ_pos i, .inl hcell.symm⟩
      omega

/-! ## Runs -/

variable {m : Machine} {dir : Direction}

/-- CPIR and CPDR.  The instruction is executed as often as it takes to meet a cell that
    holds A, BC times if there is none.  HL has moved and BC has counted down as far, Z
    shows whether the last cell holds A and P/V whether BC is not zero; memory, the ports
    and the other registers but R and F are as before. -/
theorem runsBlock_compare (hat : m.AtBlock .compare dir) :
    let n := m.searchLength dir
    let after := steps n m
    IsLeast {n | 0 < n ∧ (m.mem.get (dir.along m.hl (n - 1)) = m.a ∨ n = m.bc.turns)} n ∧
    m.RunsBlock .compare dir n ∧
    after.pc = m.pc + 2 ∧
    after.hl = dir.along m.hl n ∧
    after.bc = m.bc - n.toUInt16 ∧
    after.a = m.a ∧
    after.de = m.de ∧
    after.flags.z = (m.mem.get (dir.along m.hl (n - 1)) == m.a) ∧
    after.flags.pv = (after.bc != 0) ∧
    after.flags.n = true ∧
    after.flags.c = m.flags.c ∧
    after.mem = m.mem ∧
    after.ports = m.ports := by
  intro n after
  have hleast := m.isLeast_searchLength dir
  obtain ⟨hruns, hrounds⟩ := runsBlock hleast.1.1 hat
    (fun i _ a _ => by rw [mem_rounds m dir (.inl rfl)])
    fun i hi => blockContinues_rounds_compare m dir hi
  obtain ⟨hmem, hports, hflags⟩ := hrounds n (Nat.le_refl n)
  obtain ⟨k, hk⟩ : ∃ k, n = k + 1 := Nat.exists_eq_add_one.mpr hleast.1.1
  obtain ⟨hz, hpv, hn, hc⟩ := m.flags_rounds_compare dir k
  rw [← hk, ← hflags] at hz hpv hn hc
  have hbc : after.bc = m.bc - n.toUInt16 := hruns.bc
  refine ⟨hleast, hruns, hruns.pc, hruns.hl, hbc, ?_, hruns.de, ?_, ?_, hn, hc, ?_, ?_⟩
  · rw [a, hruns.regs]
    rfl
  · rw [hk]
    exact hz
  · rw [hbc]
    exact hpv
  · exact hmem.trans (mem_rounds m dir (.inl rfl) n)
  · exact hports.trans (ports_rounds m dir (by decide) n)

/-- CPDR down from address zero: the match is in the last cell that BC allows. -/
theorem runsBlock_compare_atCode :
    let m := (((atCode 0x4000 [0xED, 0xB9]).store 0xFFFF 0x2A).setPair (.bank .hl) 0).setPair
      (.bank .bc) 2 |>.setA 0x2A
    m.AtBlock .compare .down ∧ m.RunsBlock .compare .down 2 ∧ (steps 2 m).hl = 0xFFFE ∧
      (steps 2 m).flags.z = true ∧ (steps 2 m).flags.pv = false := by
  intro m
  have hcode : m.mem = ((Space.zero.set 0x4000 0xED).set 0x4001 0xB9).set 0xFFFF 0x2A := rfl
  have hrunning : m.halted = false := rfl
  have hat : m.pc = 0x4000 := rfl
  have ha : m.a = 0x2A := rfl
  have hhl : m.hl = 0 := Word.ofBytes_hi_lo 0
  have hbc : m.bc = 2 := Word.ofBytes_hi_lo 2
  clear_value m
  have hturns : m.bc.turns = 2 := by rw [hbc]; decide
  have hfirst : m.mem.get (Direction.along .down 0 0) = 0 := by simp [hcode, Space.get_set]
  have hlast : m.mem.get (Direction.along .down 0 1) = 0x2A := by
    rw [hcode, show Direction.along .down 0 1 = 0xFFFF by decide, Space.get_set_self]
  have hlength : m.searchLength .down = 2 := by
    rw [searchLength, hturns, hhl, ha, show List.range 2 = [0, 1] from rfl,
      List.find?_cons_of_neg (by rw [hfirst]; decide), List.find?_cons_of_pos (by rw [hlast]; rfl)]
  have hblock : m.AtBlock .compare .down := by
    refine ⟨hrunning, ?_, ?_⟩
    · simp [hcode, hat, Space.get_set]
    · simp [hcode, hat, Space.get_set, BlockOp.code]
  obtain ⟨-, hruns, -, hend, hcount, -, -, hz, hpv, -⟩ := runsBlock_compare hblock
  rw [hlength] at hruns hend hcount hz hpv
  refine ⟨hblock, hruns, ?_, ?_, ?_⟩
  · rw [hend, hhl]
    rfl
  · rw [hz, hhl, ha, hlast]
    rfl
  · rw [hpv, hcount, hbc]
    rfl

/-- Halted at CPIR with one cell to look at: no step gets behind the instruction. -/
theorem stuck_at_compare :
    let m := { (atCode 0 [0xED, 0xB1]).setPair (.bank .bc) 1 with halted := true }
    m.mem.get m.pc = 0xED ∧ m.mem.get (m.pc + 1) = BlockOp.code .compare .up ∧
      m.searchLength .up = 1 ∧
      ∀ n, (steps n m).pc ≠ m.pc + 2 := by
  intro m
  have hcode : m.mem = (Space.zero.set 0 0xED).set 1 0xB1 := rfl
  have hat : m.pc = 0 := rfl
  have hhalted : m.halted = true := rfl
  have hbc : m.bc = 1 := Word.ofBytes_hi_lo 1
  clear_value m
  refine ⟨?_, ?_, ?_, pc_steps_of_halted hhalted⟩
  · simp [hcode, hat, Space.get_set]
  · simp [hcode, hat, BlockOp.code]
  · have hall : m.searchLength .up ≤ 1 := by
      have hturns : m.bc.turns = 1 := by rw [hbc]; decide
      rw [← hturns]
      exact m.searchLength_le .up
    have hsome : 0 < m.searchLength .up := (m.isLeast_searchLength .up).1.1
    omega

end Machine

end Z80
