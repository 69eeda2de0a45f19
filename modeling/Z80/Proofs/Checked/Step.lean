/-
  Z80.Proofs.Checked.Step

  No step of the machine leaves a width or an array.

  A checked step decodes, fetches, executes and counts time with operations that may each
  fail: a field of an opcode less four, a bit number, the T-states in 32 bits, and all that
  an effect consists of.  It never fails, and it is the step of the machine (`step?_eq`); so
  are any number of steps, from tables that can be generated (`exists_generate_steps`).
-/

import Z80.Proofs.Checked.Effect
import Z80.Proofs.Timing

namespace Z80

open Checked

/-! ## Decoding -/

namespace Decode

/-- The bit number in field `y`, if a byte has that bit. -/
def bitNumber? (op : Byte) : Option (Fin 8) :=
  if h : (fieldY op).toNat < 8 then some ⟨(fieldY op).toNat, h⟩ else none

/-- The condition of JR, in field `y` less four. -/
def jrCond? (op : Byte) : Option Cond := do
  let field ← difference? (fieldY op).toNat 4
  return .ofField field.toUInt8

/-- The instruction of a main-page opcode; the four opcodes that match `001--000` are JR with
    a condition. -/
def main? (x? : Option Index) (op n₁ n₂ : Byte) : Option (Instr × Nat) :=
  if op &&& 0xE7 == 0x20 then do
    let cc ← jrCond? op
    return (.jr (some cc) n₁.toInt8, 1)
  else some (main x? op n₁ n₂)

/-- The instruction of a CB-page opcode on a target. -/
def bits? (op : Byte) (target : Operand) (copy : Option Reg8) (opcode : Opcode) : Option Instr :=
  match op >>> 6 with
  | 0 =>
    match RotOp.ofField? (fieldY op) with
    | some rot => some (.rot rot target copy)
    | none => some (.unimplemented opcode)
  | 1 => do return .bit (← bitNumber? op) target
  | 2 => do return .res (← bitNumber? op) target copy
  | _ => do return .set (← bitNumber? op) target copy

/-- The instruction of the bytes CB `op`. -/
def cb? (op : Byte) : Option Instr :=
  bits? op (.plain op) none (.cb op)

/-- The instruction of the bytes DD CB `d` `op` or FD CB `d` `op`. -/
def indexCb? (x : Index) (d op : Byte) : Option Instr :=
  bits? op (.indexed x d.toInt8) (Reg8.ofField? op) (.indexCb x d.toInt8 op)

/-- The instruction after a DD or FD byte. -/
def indexed? (x : Index) (b₁ b₂ b₃ : Byte) : Option Decoded :=
  match b₁ with
  | 0xDD => some ⟨.nop, 1, false⟩
  | 0xFD => some ⟨.nop, 1, false⟩
  | 0xED => some ⟨.nop, 1, false⟩
  | 0xCB => do return ⟨← indexCb? x b₂ b₃, 4, true⟩
  | _ => do
    let (instr, n) ← main? (if indexAffects b₁ then some x else none) b₁ b₂ b₃
    return ⟨instr, 2 + n, true⟩

end Decode

/-- The instruction at the start of four bytes. -/
def decode? (b₀ b₁ b₂ b₃ : Byte) : Option Decoded :=
  match b₀ with
  | 0xCB => do return ⟨← Decode.cb? b₁, 2, true⟩
  | 0xDD => Decode.indexed? .ix b₁ b₂ b₃
  | 0xFD => Decode.indexed? .iy b₁ b₂ b₃
  | 0xED =>
    let (instr, n) := Decode.ed b₁ b₂ b₃
    some ⟨instr, 2 + n, true⟩
  | _ => do
    let (instr, n) ← Decode.main? none b₀ b₁ b₂
    return ⟨instr, 1 + n, false⟩

namespace Decode

theorem fieldY_lt (op : Byte) : (fieldY op).toNat < 8 := by
  revert op
  rw [Byte.forall_iff]
  decide +kernel

theorem bitNumber?_eq (op : Byte) : bitNumber? op = some (bitNumber op) := by
  have hlt := fieldY_lt op
  have hsame : (⟨(fieldY op).toNat, hlt⟩ : Fin 8) = bitNumber op :=
    Fin.ext (Nat.mod_eq_of_lt hlt).symm
  rw [bitNumber?, dif_pos hlt, hsame]

/-- The guard of JR with a condition leaves the fields from four on. -/
theorem main_of_jr {op : Byte} (h : op &&& 0xE7 = 0x20) (x? : Option Index) (n₁ n₂ : Byte) :
    4 ≤ (fieldY op).toNat ∧
      main x? op n₁ n₂ = (.jr (some (.ofField (fieldY op - 4))) n₁.toInt8, 1) := by
  have hop : op = 0x20 ∨ op = 0x28 ∨ op = 0x30 ∨ op = 0x38 := by
    revert op
    rw [Byte.forall_iff]
    decide +kernel
  obtain rfl | rfl | rfl | rfl := hop
  · exact ⟨by decide, rfl⟩
  · exact ⟨by decide, rfl⟩
  · exact ⟨by decide, rfl⟩
  · exact ⟨by decide, rfl⟩

theorem main?_eq (x? : Option Index) (op n₁ n₂ : Byte) :
    main? x? op n₁ n₂ = some (main x? op n₁ n₂) := by
  rw [main?]
  split
  case isTrue h =>
    obtain ⟨hfield, hmain⟩ := main_of_jr (beq_iff_eq.mp h) x? n₁ n₂
    have hcond : ((fieldY op).toNat - 4).toUInt8 = fieldY op - 4 := by
      apply UInt8.toNat_inj.mp
      rw [UInt8.toNat_sub_of_le _ _ hfield]
      show ((fieldY op).toNat - 4) % 256 = _
      have := fieldY_lt op
      simp only [UInt8.reduceToNat]
      omega
    have hjr : jrCond? op = some (.ofField (fieldY op - 4)) := by
      rw [jrCond?, difference?_eq hfield, Option.bind_eq_bind, Option.bind_some, hcond]
      rfl
    rw [hjr, hmain]
    rfl
  case isFalse => rfl

theorem bits?_eq (op : Byte) (target : Operand) (copy : Option Reg8) (opcode : Opcode) :
    bits? op target copy opcode = some (bits op target copy opcode) := by
  rw [bits?, bits, bitNumber?_eq]
  cases RotOp.ofField? (fieldY op) <;> split <;> simp_all

theorem cb?_eq (op : Byte) : cb? op = some (cb op) :=
  bits?_eq op (.plain op) none (.cb op)

theorem indexCb?_eq (x : Index) (d op : Byte) : indexCb? x d op = some (indexCb x d op) :=
  bits?_eq op (.indexed x d.toInt8) (Reg8.ofField? op) (.indexCb x d.toInt8 op)

theorem indexed?_eq (x : Index) (b₁ b₂ b₃ : Byte) :
    indexed? x b₁ b₂ b₃ = some (indexed x b₁ b₂ b₃) := by
  rw [indexed?.eq_def, indexed.eq_def]
  simp only [indexCb?_eq, main?_eq]
  split <;> simp_all

end Decode

/-- Decoding neither takes four from less nor finds a bit beyond the byte. -/
theorem decode?_eq (b₀ b₁ b₂ b₃ : Byte) : decode? b₀ b₁ b₂ b₃ = some (decode b₀ b₁ b₂ b₃) := by
  rw [decode?.eq_def, decode.eq_def]
  simp only [Decode.cb?_eq, Decode.indexed?_eq, Decode.main?_eq]
  split <;> simp_all

/-! ## Steps -/

namespace Machine

variable (t : Tables) (m : Machine)

/-- The instruction at the program counter, from four cells of memory. -/
def current? : Option Decoded := do
  decode? (← m.cell? m.pc) (← m.cell? (m.pc + 1)) (← m.cell? (m.pc + 2)) (← m.cell? (m.pc + 3))

/-- The machine after fetching and executing an instruction, with the T-states in 32 bits. -/
def execute? (d : Decoded) : Option Machine := do
  let fetched := m.fetch d
  let taken ← d.instr.taken? fetched
  let after ← d.instr.effect? t fetched taken
  let cycles ← sum? 32 0 [fetchTime d, d.instr.tail taken]
  return { after with cycles }

/-- One step. -/
def step? : Option Machine := do
  if m.halted then return m.idle
  m.execute? t (← m.current?)

/-- The machine after a number of steps. -/
def steps? : Nat → Machine → Option Machine
  | 0, m => some m
  | n + 1, m => do steps? n (← m.step? t)

variable {t}

theorem current?_eq : m.current? = some m.current := by
  simp only [current?, cell?_eq, decode?_eq, Option.bind_eq_bind, Option.bind_some]
  rfl

theorem execute?_eq (h : t.Complete) (d : Decoded) : m.execute? t d = some (m.execute d) := by
  have hcycles (taken : Bool) : sum? 32 0 [fetchTime d, d.instr.tail taken] =
      some (fetchTime d + d.instr.tail taken) := by
    have := fetchTime_le d
    have := d.instr.tail_le taken
    rw [sum?_two (by omega), Nat.zero_add]
  simp only [execute?, Instr.taken?_eq, Instr.effect?_eq _ h, hcycles, Option.bind_eq_bind,
    Option.bind_some]
  rfl

/-- A checked step does not fail, and it is the step of the machine. -/
theorem step?_eq (h : t.Complete) : m.step? t = some m.step := by
  unfold step? step
  split
  case isTrue => rfl
  case isFalse =>
    rw [current?_eq, Option.bind_eq_bind, Option.bind_some]
    exact m.execute?_eq h m.current

theorem steps?_eq (h : t.Complete) (n : Nat) (m : Machine) : steps? t n m = some (steps n m) := by
  induction n generalizing m with
  | zero => rfl
  | succ n ih =>
    rw [steps?, step?_eq m h, Option.bind_eq_bind, Option.bind_some, ih]
    rfl

/-- The tables can be generated, and with them no step of any machine leaves a width or an
    array, nor does loading a run of bytes into a space: each checked operation has the
    result that the machine has.  A step takes at most 23 T-states. -/
theorem exists_generate_steps :
    (∃ t, Tables.generate? = some t ∧ ∀ n m, steps? t n m = some (steps n m)) ∧
    (∀ m : Machine, m.step.cycles ≤ 23) ∧
    ∀ (s : Space) a data, s.load? a data = some (s.load a data.bytes) := by
  -- the tables are generated once, and all machines share them
  obtain ⟨t, hgenerate, hcomplete⟩ := Tables.exists_generate
  exact ⟨⟨t, hgenerate, steps?_eq hcomplete⟩, cycles_step_le, Space.load?_eq⟩

end Machine

end Z80
