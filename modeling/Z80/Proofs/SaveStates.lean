/-
  Z80.Proofs.SaveStates

  Snapshots are complete save states.

  A step depends on the registers, the interrupt mode, the halt latch, memory and
  ports, and on nothing else: neither the time of the last step nor the clock shows
  in what it does (`step_onto_of_same`).  So a snapshot with the memory and the ports
  decides all that a machine will do, and restoring it on any machine with the same
  memory and ports gives one that cannot be told from the first
  (`indistinguishable_restore`); a reset gives one that cannot be told from a new one.
-/

import Z80.Proofs.Encoding
import Z80.Proofs.ReadLocality
import Z80.Snapshot

namespace Z80

namespace Machine

/-! ## What a step does not depend on -/

variable {m k : Machine}

/-- With its registers put onto a machine with the same memory and ports, a machine
    does the same; only the clock is that of the other. -/
theorem step_onto_of_same (hmem : k.mem = m.mem) (hports : k.ports = m.ports) :
    (m.onto k).step = { m.step with clock := k.clock } := by
  obtain ⟨stored, sent, hstep⟩ := m.exists_step_onto
  have hother : (m.onto k).step =
      { m.step.onto (k.patch stored sent) with cycles := m.step.cycles } :=
    hstep k (fun _ _ => by rw [hmem]) fun _ _ => by rw [hports]
  -- a machine put onto itself is the machine, so its own spaces are written alike
  have hself : m.step = { m.step.onto (m.patch stored sent) with cycles := m.step.cycles } :=
    hstep m (fun _ _ => rfl) fun _ _ => rfl
  have hsmem : m.step.mem = m.mem.write stored := congrArg Machine.mem hself
  have hsports : m.step.ports = m.ports.write sent := congrArg Machine.ports hself
  rw [hother]
  simp only [onto, patch, hmem, hports, hsmem, hsports]

theorem step_withClock (m : Machine) (c : Clock) :
    ({ m with clock := c }).step = { m.step with clock := c } :=
  step_onto_of_same (k := { m with clock := c }) rfl rfl

/-- The time of the last step does not show in the next. -/
theorem tryStep_withCycles (m : Machine) (n : Nat) :
    ({ m with cycles := n }).tryStep = m.tryStep := by
  have hself : m.step = { m.step with clock := m.clock } :=
    step_onto_of_same (m := m) (k := m) rfl rfl
  have hother : ({ m with cycles := n }).step = { m.step with clock := m.clock } :=
    step_onto_of_same (k := { m with cycles := n }) rfl rfl
  have hfault : ({ m with cycles := n }).fault? = m.fault? := rfl
  simp only [tryStep, hfault, hother.trans hself.symm]

theorem steps_withClock (n : Nat) (m : Machine) (c : Clock) :
    steps n { m with clock := c } = { steps n m with clock := c } := by
  induction n generalizing m with
  | zero => rfl
  | succ n ih =>
    rw [steps, step_withClock, ih]
    rfl

theorem stepsTime_withClock (n : Nat) (m : Machine) (c : Clock) :
    stepsTime n { m with clock := c } = stepsTime n m := by
  induction n generalizing m with
  | zero => rfl
  | succ n ih =>
    rw [stepsTime, step_withClock, ih]
    rfl

/-! ## Machines that cannot be told apart -/

/-- Two machines show the same: the same snapshot, memory and ports. -/
structure Alike (a b : Machine) : Prop where
  snapshot : a.snapshot = b.snapshot
  mem : a.mem = b.mem
  ports : a.ports = b.ports

/-- Two machines show the same after every number of steps, and each step reports the
    same: its T-states or the same fault. -/
def Indistinguishable (a b : Machine) : Prop :=
  ∀ n, (steps n a).Alike (steps n b) ∧ (steps n a).tryStep.2 = (steps n b).tryStep.2

/-- What a machine does not show is the time of its last step and its clock. -/
theorem Alike.eq_onto {a b : Machine} (h : a.Alike b) : b = a.onto b := by
  have hregs : b.regs = a.regs := by
    rw [← registers_snapshot, ← registers_snapshot, h.snapshot]
  have him : b.im = a.im := congrArg Snapshot.im h.snapshot.symm
  have hhalted : b.halted = a.halted := congrArg Snapshot.halted h.snapshot.symm
  rw [onto, ← hregs, ← him, ← hhalted]

theorem Alike.step_eq {a b : Machine} (h : a.Alike b) :
    b.step = { a.step with clock := b.clock } := by
  have hstep := step_onto_of_same h.mem.symm h.ports.symm
  rwa [← h.eq_onto] at hstep

theorem Alike.step {a b : Machine} (h : a.Alike b) : a.step.Alike b.step := by
  rw [h.step_eq]
  exact ⟨rfl, rfl, rfl⟩

theorem Alike.fault?_eq {a b : Machine} (h : a.Alike b) : b.fault? = a.fault? := by
  have hcurrent : (a.onto b).current = a.current :=
    current_onto fun _ _ => by rw [h.mem]
  rw [h.eq_onto, fault?, fault?, hcurrent]
  rfl

/-- Machines that show the same report the same about the next step. -/
theorem Alike.tryStep_eq {a b : Machine} (h : a.Alike b) : a.tryStep.2 = b.tryStep.2 := by
  have hcycles : b.step.cycles = a.step.cycles := by rw [h.step_eq]
  simp only [tryStep, h.fault?_eq, hcycles]

theorem Alike.steps {a b : Machine} (h : a.Alike b) (n : Nat) :
    (steps n a).Alike (steps n b) := by
  induction n generalizing a b with
  | zero => exact h
  | succ n ih => exact ih h.step

/-- What a machine shows decides all that it will do. -/
theorem Alike.indistinguishable {a b : Machine} (h : a.Alike b) : a.Indistinguishable b :=
  fun n => ⟨h.steps n, (h.steps n).tryStep_eq⟩

/-! ## Save states -/

theorem alike_restore (m₁ m₂ : Machine) (hmem : m₂.mem = m₁.mem) (hports : m₂.ports = m₁.ports) :
    (m₂.restore m₁.snapshot).Alike m₁ :=
  ⟨snapshot_restore m₂ m₁.snapshot, hmem, hports⟩

theorem alike_reset (m : Machine) (c : Clock) :
    m.reset.Alike { initial c with mem := m.mem, ports := m.ports } :=
  ⟨rfl, rfl, rfl⟩

/-- A snapshot restored on a machine with the same memory and ports, whatever its
    registers, its clock and the time of its last step, gives a machine that cannot be
    told from the one that the snapshot was taken of.  Restoring is exact: the snapshot
    of a machine that any snapshot was restored on is that snapshot.  And a machine that
    is reset after any number of steps cannot be told from a new one, of any clock, with
    the same memory and ports. -/
theorem indistinguishable_restore (m₁ m₂ : Machine) :
    (m₂.mem = m₁.mem → m₂.ports = m₁.ports →
      (m₂.restore m₁.snapshot).Indistinguishable m₁) ∧
    (∀ s : Snapshot, (m₂.restore s).snapshot = s) ∧
    ∀ (n : Nat) (c : Clock), (steps n m₁).reset.Indistinguishable
      { initial c with mem := (steps n m₁).mem, ports := (steps n m₁).ports } := by
  refine ⟨?_, snapshot_restore m₂, ?_⟩
  · intro hmem hports
    exact (alike_restore m₁ m₂ hmem hports).indistinguishable
  · intro n c
    exact (alike_reset (steps n m₁) c).indistinguishable

/-- EXX restored with other registers, another clock and another time. -/
theorem indistinguishable_restore_atCode_exx :
    let m := atCode 0xFFFF [0xD9]
    let other := { initial { mhz := 1.0, realtime := false } with
      mem := m.mem, ports := m.ports, halted := true, cycles := 23 }
    other.mem = m.mem ∧ other.ports = m.ports ∧
      (other.restore m.snapshot).Indistinguishable m ∧
      (steps 5 (other.restore m.snapshot)).snapshot = (steps 5 m).snapshot := by
  intro m other
  have hsame := (indistinguishable_restore m other).1 rfl rfl
  exact ⟨rfl, rfl, hsame, (hsame 5).1.snapshot⟩

end Machine

end Z80
