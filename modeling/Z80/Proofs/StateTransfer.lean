/-
  Z80.Proofs.StateTransfer

  The state of a test case and the saved state of a machine.

  Both hold every register of the processor; a case state keeps the flip-flops as numbers,
  lists memory cells, and does not say whether the processor is halted.  `SameRegisters`
  says field by field that the two agree, and `Corresponds` that they describe one
  processor.

  A case state is brought into a machine by writing its registers in turn.  The writes name every
  byte of the register file, so it does not matter what was there, and restoring a saved state
  does the same (`Machine.apply_eq_restore`, `restoreInTurn_eq`).  Of the cells that a case state
  lists for one address the last stays (`get_write_of_last`).

  The main statement is `transfer_law`.
-/

import Z80.Proofs.GeneratedCases
import Z80.Proofs.RegisterViews

namespace Z80

/-! ## Cells written in turn -/

namespace Space

theorem write_append (s : Space) (front back : List (Word × Byte)) :
    s.write (front ++ back) = (s.write front).write back :=
  List.foldl_append

/-- Of the cells written to one address the last stays. -/
theorem get_write_of_last (s : Space) (front : List (Word × Byte)) (a : Word) (v : Byte)
    {back : List (Word × Byte)} (h : a ∉ back.map Prod.fst) :
    (s.write (front ++ (a, v) :: back)).get a = v := by
  rw [write_append, write_cons, get_write_of_not_mem _ h, get_set_self]

end Space

/-! ## States that agree -/

namespace CaseState

/-- A case state and a saved state agree in every register but the flip-flops. -/
structure SameRegisters (s : CaseState) (t : Snapshot) : Prop where
  pc : s.pc = t.pc
  sp : s.sp = t.sp
  a : s.a = t.a
  f : s.f = t.f
  b : s.b = t.b
  c : s.c = t.c
  d : s.d = t.d
  e : s.e = t.e
  h : s.h = t.h
  l : s.l = t.l
  afAlt : s.afAlt = t.afAlt
  bcAlt : s.bcAlt = t.bcAlt
  deAlt : s.deAlt = t.deAlt
  hlAlt : s.hlAlt = t.hlAlt
  ix : s.ix = t.ix
  iy : s.iy = t.iy
  i : s.i = t.i
  r : s.r = t.r
  im : s.im = t.im

/-- The saved state of the processor that a case state describes: a flip-flop is set by any
    number but zero, and the processor is not halted. -/
structure Corresponds (s : CaseState) (t : Snapshot) : Prop extends SameRegisters s t where
  iff1 : t.iff1 = true ↔ s.iff1 ≠ 0
  iff2 : t.iff2 = true ↔ s.iff2 ≠ 0
  halted : t.halted = false

/-- There is one such state. -/
theorem corresponds_iff {s : CaseState} {t : Snapshot} : s.Corresponds t ↔ t = s.snapshot := by
  constructor
  · intro h
    have hiff1 : t.iff1 = (s.iff1 != 0) := by rw [Bool.eq_iff_iff, h.iff1, bne_iff_ne]
    have hiff2 : t.iff2 = (s.iff2 != 0) := by rw [Bool.eq_iff_iff, h.iff2, bne_iff_ne]
    rw [snapshot, h.pc, h.sp, h.a, h.f, h.b, h.c, h.d, h.e, h.h, h.l, h.afAlt, h.bcAlt, h.deAlt,
      h.hlAlt, h.ix, h.iy, h.i, h.r, h.im, ← hiff1, ← hiff2, ← h.halted]
  · rintro rfl
    exact ⟨⟨rfl, rfl, rfl, rfl, rfl, rfl, rfl, rfl, rfl, rfl, rfl, rfl, rfl, rfl, rfl, rfl, rfl,
      rfl, rfl⟩, bne_iff_ne, bne_iff_ne, rfl⟩

/-- The case state with its flip-flops as they are read, 0 or 1, and without what the
    processor does not have. -/
def normalized (s : CaseState) : CaseState :=
  { s with
    iff1 := if s.iff1 = 0 then 0 else 1
    iff2 := if s.iff2 = 0 then 0 else 1
    wz := 0, ei := 0, p := 0, q := 0, ram := [] }

end CaseState

/-! ## Registers written in turn -/

/-- The writes that fill the banks and the index registers. -/
def fillingWrites (a f b c d e h l : Byte) (afAlt bcAlt deAlt hlAlt ix iy : Word) :
    List RegWrite :=
  [.set .main .a a, .set .main .f f, .set .main .b b, .set .main .c c, .set .main .d d,
   .set .main .e e, .set .main .h h, .set .main .l l, .setPair .shadow .af afAlt,
   .setPair .shadow .bc bcAlt, .setPair .shadow .de deAlt, .setPair .shadow .hl hlAlt,
   .setIndex .ix ix, .setIndex .iy iy]

namespace Machine

/-- The machine with the registers of a saved state written in turn. -/
def restoreInTurn (m : Machine) (t : Snapshot) : Machine :=
  let regs := m.regs.written (fillingWrites t.a t.f t.b t.c t.d t.e t.h t.l t.afAlt t.bcAlt t.deAlt
    t.hlAlt t.ix t.iy)
  { m with
    regs := { regs with
      sp := t.sp, pc := t.pc, i := t.i, r := t.r, iff1 := t.iff1, iff2 := t.iff2 }
    im := t.im
    halted := t.halted }

theorem restoreInTurn_eq (m : Machine) (t : Snapshot) : m.restoreInTurn t = m.restore t := rfl

/-! ## There and back -/

variable (m : Machine) (s : CaseState)

/-- The cells of a case state are no part of the saved state. -/
theorem snapshot_apply : (m.apply s).snapshot = s.snapshot := by
  rw [apply_eq_restore]
  exact snapshot_restore m s.snapshot

end Machine

namespace CaseState

theorem sameRegisters_ofMachine (m : Machine) : (ofMachine m).SameRegisters m.snapshot :=
  ⟨rfl, rfl, rfl, rfl, rfl, rfl, rfl, rfl, rfl, rfl, rfl, rfl, rfl, rfl, rfl, rfl, rfl, rfl, rfl⟩

/-- A flip-flop as it is read. -/
theorem toUInt8_eq (on : Bool) : on.toUInt8 = if on then 1 else 0 := by
  cases on <;> rfl

theorem toUInt8_bne_zero (v : Byte) : (v != 0).toUInt8 = if v = 0 then 0 else 1 := by
  by_cases hv : v = 0 <;> simp [hv, toUInt8_eq]

theorem bne_zero_toUInt8 (on : Bool) : (on.toUInt8 != 0) = on := by
  cases on <;> rfl

/-- A case state is captured as it was applied, but for what `normalized` changes. -/
theorem ofMachine_apply (m : Machine) (s : CaseState) : ofMachine (m.apply s) = s.normalized := by
  simp [ofMachine, Machine.apply_eq_restore, Machine.restore, Machine.reg, Snapshot.registers,
    snapshot, Bank.get, Bank.pair, Reg16.high, Reg16.low, normalized, toUInt8_bne_zero]

/-- What is captured of a machine is its saved state, except that it is not halted. -/
theorem snapshot_ofMachine (m : Machine) :
    (ofMachine m).snapshot = { m.snapshot with halted := false } := by
  simp only [snapshot, ofMachine, Machine.snapshot, bne_zero_toUInt8]

/-- Capturing, applying and capturing again changes nothing. -/
theorem normalized_ofMachine (m : Machine) : (ofMachine m).normalized = ofMachine m :=
  calc (ofMachine m).normalized
      = ofMachine (m.apply (ofMachine m)) := (ofMachine_apply m (ofMachine m)).symm
    _ = ofMachine (m.restore m.snapshot) := by
      rw [Machine.apply_eq_restore, snapshot_ofMachine]
      rfl
    _ = ofMachine m := by rw [Machine.restore_snapshot]

end CaseState

namespace Machine

/-- The states of test cases and saved states agree.

    A case state corresponds to exactly one saved state, and applying it to a machine puts the
    registers where restoring that saved state does.  A cell that it names gets the value of
    its last entry; all other cells, the ports, the T-states and the clock are left.  Capturing
    gives the case state back, with its flip-flops as 0 or 1, without what the processor does not
    have, and without cells.  To write the registers in turn, as applying does, is to restore, and
    to restore is to write them in turn.

    What is captured of a machine agrees with its saved state in every register, and applying it
    to any other machine gives that the same saved state, except that it is not halted. -/
theorem transfer_law (m : Machine) (s : CaseState) :
    let applied := m.apply s
    let captured := CaseState.ofMachine m
    (∃! t, s.Corresponds t) ∧
    (∀ t, s.Corresponds t →
      applied.regs = (m.restore t).regs ∧ applied.im = (m.restore t).im ∧
        applied.halted = (m.restore t).halted ∧ applied.snapshot = t) ∧
    (∀ a, (∀ front v back, s.ram = front ++ (a, v) :: back → a ∉ back.map Prod.fst →
        applied.mem.get a = v) ∧
      (a ∉ s.ram.map Prod.fst → applied.mem.get a = m.mem.get a)) ∧
    (applied.ports = m.ports ∧ applied.cycles = m.cycles ∧ applied.clock = m.clock) ∧
    CaseState.ofMachine applied = s.normalized ∧
    (applied = { m.restore s.snapshot with mem := m.mem.write s.ram } ∧
      ∀ t, m.restore t = m.restoreInTurn t) ∧
    (captured.SameRegisters m.snapshot ∧
      captured.iff1 = (if m.snapshot.iff1 then 1 else 0) ∧
      captured.iff2 = (if m.snapshot.iff2 then 1 else 0) ∧
      captured.normalized = captured) ∧
    ∀ k : Machine, (k.apply captured).snapshot = { m.snapshot with halted := false } := by
  intro applied captured
  refine ⟨⟨s.snapshot, CaseState.corresponds_iff.mpr rfl, fun t => CaseState.corresponds_iff.mp⟩,
    ?_, ?_, ⟨rfl, rfl, rfl⟩, s.ofMachine_apply m,
    ⟨m.apply_eq_restore s, fun t => (m.restoreInTurn_eq t).symm⟩,
    ⟨CaseState.sameRegisters_ofMachine m, CaseState.toUInt8_eq _, CaseState.toUInt8_eq _,
      CaseState.normalized_ofMachine m⟩, ?_⟩
  · -- a saved state that corresponds is the one that `apply` restores
    intro t h
    obtain rfl := CaseState.corresponds_iff.mp h
    have happly : applied = { m.restore s.snapshot with mem := m.mem.write s.ram } :=
      m.apply_eq_restore s
    rw [happly]
    exact ⟨rfl, rfl, rfl, m.snapshot_restore s.snapshot⟩
  · intro a
    constructor
    · intro front v back hram hlast
      show (m.mem.write s.ram).get a = v
      rw [hram, Space.get_write_of_last _ _ _ _ hlast]
    · exact Space.get_write_of_not_mem m.mem
  · intro k
    rw [k.snapshot_apply, CaseState.snapshot_ofMachine]

/-- A state with a flip-flop at 7 and two entries for one cell, on a halted machine full of
    other bytes. -/
theorem transfer_law_duplicates :
    let m : Machine := { Machine.initial {} with halted := true, mem := .fill 0xAA }
    let s : CaseState :=
      { pc := 0x1234, sp := 0x8000, f := 0x29, hlAlt := 0xBEEF, im := 2, iff1 := 7, wz := 9,
        ram := [(5, 1), (6, 3), (5, 2)] }
    (m.apply s).regs.pc = 0x1234 ∧ (m.apply s).regs.iff1 = true ∧ (m.apply s).halted = false ∧
      (m.apply s).mem.get 5 = 2 ∧ (m.apply s).mem.get 6 = 3 ∧ (m.apply s).mem.get 7 = 0xAA ∧
      CaseState.ofMachine (m.apply s) =
        { pc := 0x1234, sp := 0x8000, f := 0x29, hlAlt := 0xBEEF, im := 2, iff1 := 1 } ∧
      (m.apply (CaseState.ofMachine m)).snapshot = { m.snapshot with halted := false } := by
  intro m s
  obtain ⟨-, hregisters, hcells, -, hcaptured, -, -, hagain⟩ := transfer_law m s
  obtain ⟨hregs, -, hhalted, -⟩ := hregisters s.snapshot (CaseState.corresponds_iff.mpr rfl)
  refine ⟨?_, ?_, hhalted, ?_, ?_, ?_, hcaptured, hagain m⟩
  · rw [hregs]
    rfl
  · rw [hregs]
    rfl
  · exact (hcells 5).1 [(5, 1), (6, 3)] 2 [] rfl (by decide)
  · exact (hcells 6).1 [(5, 1)] 3 [(5, 2)] rfl (by decide)
  · rw [(hcells 7).2 (by decide)]
    exact Space.get_fill 0xAA 7

end Machine

end Z80
