/-
  Z80.Step

  One step of the machine.  A halted machine only refreshes; any other executes
  the instruction at the program counter.  An opcode without an instruction is
  consumed like any other; `fault?` reports it.
-/

import Z80.Decode
import Z80.Effect

namespace Z80

/-- An opcode without an instruction, at the address of its first byte. -/
structure Fault where
  pc : Word
  opcode : Opcode
  deriving DecidableEq, Repr

namespace Machine

/-- The instruction at the program counter. -/
def current (m : Machine) : Decoded :=
  decode (m.mem.get m.pc) (m.mem.get (m.pc + 1)) (m.mem.get (m.pc + 2)) (m.mem.get (m.pc + 3))

/-- The machine when an instruction has been fetched: the program counter is
    behind it and R has counted its one or two opcode fetches. -/
def fetch (m : Machine) (d : Decoded) : Machine :=
  let r := Registers.refreshed m.regs.r
  { m with regs := { m.regs with
      pc := m.regs.pc + d.size.toUInt16
      r := if d.prefixed then Registers.refreshed r else r } }

/-- The T-states of the opcode fetches of an instruction. -/
def fetchTime (d : Decoded) : Nat :=
  if d.prefixed then 8 else 4

/-- The machine after fetching and executing an instruction. -/
def execute (m : Machine) (d : Decoded) : Machine :=
  let fetched := m.fetch d
  let taken := d.instr.taken fetched
  { d.instr.effect taken fetched with cycles := fetchTime d + d.instr.tail taken }

/-- The machine idling in HALT: four T-states in which only R counts. -/
def idle (m : Machine) : Machine :=
  { m with regs := m.regs.refresh, cycles := 4 }

/-- One step.  Its T-states are the `cycles` of the result. -/
def step (m : Machine) : Machine :=
  if m.halted then m.idle else m.execute m.current

/-- The fault that the next step meets, if any. -/
def fault? (m : Machine) : Option Fault :=
  if m.halted then none
  else
    match m.current.instr with
    | .unimplemented opcode => some ⟨m.pc, opcode⟩
    | _ => none

/-- One step with its T-states, or with the fault that it met. -/
def tryStep (m : Machine) : Machine × Except Fault Nat :=
  let fault := m.fault?
  let next := m.step
  (next, match fault with
    | some e => .error e
    | none => .ok next.cycles)

/-- The machine after a number of steps. -/
def steps : Nat → Machine → Machine
  | 0, m => m
  | n + 1, m => steps n m.step

/-- The T-states of a number of steps together. -/
def stepsTime : Nat → Machine → Nat
  | 0, _ => 0
  | n + 1, m => m.step.cycles + stepsTime n m.step

/-! ## Equations -/

theorem step_of_halted {m : Machine} (h : m.halted = true) : m.step = m.idle := by
  simp [step, h]

theorem step_of_running {m : Machine} (h : m.halted = false) :
    m.step = m.execute m.current := by
  simp [step, h]

theorem steps_succ' (n : Nat) (m : Machine) : steps (n + 1) m = (steps n m).step := by
  induction n generalizing m with
  | zero => rfl
  | succ n ih => exact ih m.step

theorem steps_add (a b : Nat) (m : Machine) : steps (a + b) m = steps b (steps a m) := by
  induction a generalizing m with
  | zero => simp [steps]
  | succ a ih =>
    rw [Nat.succ_add]
    exact ih m.step

end Machine

end Z80
