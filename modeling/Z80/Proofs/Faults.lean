/-
  Z80.Proofs.Faults

  The opcodes without an instruction.

  They are listed by their bytes and apart from the decoder: SLL on the two CB
  pages, and what the ED page leaves out (`Opcode.ofBytes?`).  The main statement
  is `tryStep_fault`: a step reports a fault exactly in front of such bytes, and
  then it only consumes them.
-/

import Z80.Proofs.Encoding

namespace Z80

/-! ## The list -/

/-- Whether an opcode behind ED has an instruction. -/
def edDefined (op : Byte) : Bool :=
  -- IN r,(C) and OUT (C),r, where the cell at HL is no operand
  (0x40 ≤ op && op ≤ 0x7F && op &&& 0x07 ≤ 1 && op &&& 0x38 != 0x30) ||
  -- SBC and ADC on HL, LD (nn),rr and LD rr,(nn)
  (0x40 ≤ op && op ≤ 0x7F && (op &&& 0x07 == 2 || op &&& 0x07 == 3)) ||
  [0x44, 0x45, 0x4D, 0x46, 0x56, 0x5E, 0x47, 0x4F, 0x57, 0x5F, 0x67, 0x6F].contains op ||
  -- the block instructions
  (0xA0 ≤ op && op ≤ 0xA3) || (0xA8 ≤ op && op ≤ 0xAB) ||
  (0xB0 ≤ op && op ≤ 0xB3) || (0xB8 ≤ op && op ≤ 0xBB)

namespace Opcode

/-- The opcode without an instruction at the start of four bytes, if there is
    one. -/
def ofBytes? (b₀ b₁ b₂ b₃ : Byte) : Option Opcode :=
  if b₀ = 0xCB then
    if b₁ &&& 0xF8 = 0x30 then some (.cb b₁) else none
  else if b₀ = 0xED then
    if edDefined b₁ then none else some (.ed b₁)
  else if b₀ = 0xDD then
    if b₁ = 0xCB ∧ b₃ &&& 0xF8 = 0x30 then some (.indexCb .ix b₂.toInt8 b₃) else none
  else if b₀ = 0xFD then
    if b₁ = 0xCB ∧ b₃ &&& 0xF8 = 0x30 then some (.indexCb .iy b₂.toInt8 b₃) else none
  else none

/-- The bytes that are consumed with an opcode that has no instruction. -/
def size : Opcode → Nat
  | cb _ | ed _ => 2
  | indexCb _ _ _ => 4

/-- The T-states of consuming it. -/
def time : Opcode → Nat
  | cb _ | ed _ => 8
  | indexCb _ _ _ => 23

end Opcode

/-! ## The pages -/

/-- The opcode of an instruction that there is not. -/
def Instr.opcode? : Instr → Option Opcode
  | unimplemented o => some o
  | _ => none

theorem Instr.eq_unimplemented {i : Instr} {o : Opcode} (h : i.opcode? = some o) :
    i = unimplemented o := by
  cases i
  case unimplemented o' =>
    have heq : o' = o := Option.some.inj h
    rw [heq]
  all_goals cases h

/-- The displacement is the only immediate byte of an opcode without an
    instruction. -/
def Opcode.withDisp (d : Int8) : Opcode → Opcode
  | indexCb x _ op => indexCb x d op
  | o => o

theorem Opcode.size_withDisp (o : Opcode) (d : Int8) : (o.withDisp d).size = o.size := by
  cases o <;> rfl

theorem Instr.opcode?_withBytes (i : Instr) (n₁ n₂ : Byte) :
    (i.withBytes n₁ n₂).opcode? = i.opcode?.map (Opcode.withDisp n₁.toInt8) := by
  cases i
  case unimplemented o => cases o <;> rfl
  all_goals rfl

/-- The opcode without an instruction on a page, if it is one. -/
def Page.lacks? (p : Page) (op : Byte) (d : Int8) : Option Opcode :=
  match p with
  | main _ => none
  | cb => if op &&& 0xF8 = 0x30 then some (.cb op) else none
  | indexCb x => if op &&& 0xF8 = 0x30 then some (.indexCb x d op) else none
  | ed => if edDefined op then none else some (.ed op)
  | idle => none

/-- The decoder lacks the listed opcodes, and takes two bytes for one, or four
    when there is a displacement. -/
theorem Page.template_lacks? (p : Page) (op : Byte) :
    (p.template op).instr.opcode? = p.lacks? op 0 ∧
      ∀ o ∈ p.lacks? op 0,
        (p.template op).size = o.size ∧ (p.template op).prefixed = true := by
  revert p op
  exact forall_opcode (by decide +kernel)

theorem Page.map_withDisp_lacks? (p : Page) (op : Byte) (d : Int8) :
    (p.lacks? op 0).map (Opcode.withDisp d) = p.lacks? op d := by
  cases p with
  | main x? => rfl
  | cb => simp only [lacks?]; split <;> rfl
  | indexCb x => simp only [lacks?]; split <;> rfl
  | ed => simp only [lacks?]; split <;> rfl
  | idle => rfl

theorem Opcode.ofBytes?_behindIndex (x : Index) (b₁ b₂ b₃ : Byte) :
    (if b₁ = 0xCB ∧ b₃ &&& 0xF8 = 0x30 then some (indexCb x b₂.toInt8 b₃) else none) =
      let e := Encoding.behindIndex x b₁ b₂ b₃
      e.page.lacks? e.op e.n₁.toInt8 := by
  unfold Encoding.behindIndex
  by_cases hidle : b₁ = 0xDD ∨ b₁ = 0xFD ∨ b₁ = 0xED
  · have hcb : b₁ ≠ 0xCB := by
      rintro rfl
      exact absurd hidle (by decide)
    rw [if_pos hidle, if_neg (fun h => hcb h.1)]
    rfl
  · rw [if_neg hidle]
    by_cases hcb : b₁ = 0xCB
    · rw [if_pos hcb]
      simp only [hcb, true_and]
      rfl
    · rw [if_neg hcb, if_neg (fun h => hcb h.1)]
      rfl

/-- Read by pages, the listed bytes are the opcodes that the pages lack. -/
theorem Opcode.ofBytes?_eq_lacks? (b₀ b₁ b₂ b₃ : Byte) :
    ofBytes? b₀ b₁ b₂ b₃ =
      let e := Encoding.ofBytes b₀ b₁ b₂ b₃
      e.page.lacks? e.op e.n₁.toInt8 := by
  unfold ofBytes? Encoding.ofBytes
  by_cases hcb : b₀ = 0xCB
  · rw [hcb]
    rfl
  by_cases hed : b₀ = 0xED
  · rw [hed]
    rfl
  by_cases hdd : b₀ = 0xDD
  · rw [hdd]
    exact ofBytes?_behindIndex .ix b₁ b₂ b₃
  by_cases hfd : b₀ = 0xFD
  · rw [hfd]
    exact ofBytes?_behindIndex .iy b₁ b₂ b₃
  rw [if_neg hcb, if_neg hed, if_neg hdd, if_neg hfd, if_neg hcb, if_neg hed,
    if_neg (show ¬b₀ = Index.ix.code from hdd), if_neg (show ¬b₀ = Index.iy.code from hfd)]
  rfl

/-! ## One step -/

namespace Machine

/-- The opcode without an instruction at the program counter, if there is one. -/
def lacking? (m : Machine) : Option Opcode :=
  Opcode.ofBytes? (m.mem.get m.pc) (m.mem.get (m.pc + 1)) (m.mem.get (m.pc + 2)) (m.mem.get (m.pc + 3))

/-- The machine that has consumed an opcode without an instruction: nothing has
    changed but the program counter, R and the T-states. -/
def consume (m : Machine) (o : Opcode) : Machine :=
  { m with
    regs := { m.regs with
      pc := m.regs.pc + o.size.toUInt16
      r := Registers.refreshed (Registers.refreshed m.regs.r) }
    cycles := o.time }

theorem opcode?_instr (m : Machine) : m.instr.opcode? = m.lacking? := by
  have htable : m.template.instr.opcode? = m.encoding.page.lacks? m.encoding.op 0 :=
    (Page.template_lacks? _ _).1
  rw [instr, Instr.opcode?_withBytes, htable, Page.map_withDisp_lacks?, lacking?,
    Opcode.ofBytes?_eq_lacks?]
  rfl

theorem fault?_eq (m : Machine) :
    m.fault? = if m.halted then none else m.lacking?.map (Fault.mk m.pc) := by
  rw [← opcode?_instr, fault?, current_eq_withBytes]
  congr 1
  show (match m.instr with
    | .unimplemented o => some (Fault.mk m.pc o)
    | _ => none) = _
  cases m.instr <;> rfl

/-- The opcode is consumed like an instruction that does nothing. -/
theorem step_of_lacking {m : Machine} {o : Opcode} (h : m.halted = false)
    (hlacking : m.lacking? = some o) : m.step = m.consume o := by
  have hinstr : m.instr = .unimplemented o :=
    Instr.eq_unimplemented ((opcode?_instr m).trans hlacking)
  -- the template carries the same opcode, up to the displacement
  have hmap : m.template.instr.opcode?.map (Opcode.withDisp m.encoding.n₁.toInt8) = some o := by
    rw [← Instr.opcode?_withBytes _ _ m.encoding.n₂, ← hlacking, ← opcode?_instr]
    rfl
  obtain ⟨o', ho', rfl⟩ := Option.map_eq_some_iff.mp hmap
  obtain ⟨htable, hshape⟩ := Page.template_lacks? m.encoding.page m.encoding.op
  obtain ⟨hsize, hprefixed⟩ := hshape o' (htable ▸ ho')
  have hsize' : m.template.size = (o'.withDisp m.encoding.n₁.toInt8).size :=
    hsize.trans (Opcode.size_withDisp _ _).symm
  have hprefixed' : m.template.prefixed = true := hprefixed
  rw [step_eq_effect h, hinstr, fetched, fetch, hsize', hprefixed', fetchTime, hprefixed']
  cases o' <;> rfl

/-- A step reports a fault exactly if the machine runs and the bytes at the
    program counter are an opcode without an instruction; the fault has their
    address and the opcode.  It leaves everything as it was but the program
    counter behind the opcode, R after two fetches, and the T-states.  A step that
    does not report does the same and takes the same time. -/
theorem tryStep_fault (m : Machine) :
    (∀ e, m.tryStep.2 = .error e ↔
      m.halted = false ∧ e.pc = m.pc ∧ m.lacking? = some e.opcode) ∧
    (∀ e, m.tryStep.2 = .error e → m.tryStep.1 = m.consume e.opcode) ∧
    m.step = m.tryStep.1 ∧
    m.step.cycles = match m.tryStep.2 with
      | .ok n => n
      | .error _ => m.tryStep.1.cycles := by
  -- the step and the report are computed apart, from the machine before the step
  have hreport (e : Fault) : m.tryStep.2 = .error e ↔ m.fault? = some e := by
    unfold tryStep
    cases m.fault? with
    | none => simp
    | some e' => simp
  have hiff (e : Fault) : m.tryStep.2 = .error e ↔
      m.halted = false ∧ e.pc = m.pc ∧ m.lacking? = some e.opcode := by
    rw [hreport, fault?_eq]
    obtain ⟨pc, o⟩ := e
    cases m.halted with
    | true => simp
    | false =>
      -- the address is that of the first byte, so only the opcode is left to find
      rw [if_neg Bool.false_ne_true, Option.map_eq_some_iff]
      constructor
      · rintro ⟨o', ho', he⟩
        cases he
        exact ⟨rfl, rfl, ho'⟩
      · rintro ⟨-, hpc, ho⟩
        exact ⟨o, ho, congrArg (Fault.mk · o) hpc.symm⟩
  refine ⟨hiff, ?_, rfl, ?_⟩
  · intro e he
    obtain ⟨hrunning, -, hlacking⟩ := (hiff e).mp he
    exact step_of_lacking hrunning hlacking
  · unfold tryStep
    cases m.fault? <;> rfl

/-- SLL (IY-2) across the top of memory. -/
theorem tryStep_fault_atCode_sll :
    (atCode 0xFFFE [0xFD, 0xCB, 0xFE, 0x36]).tryStep.2 =
        .error ⟨0xFFFE, .indexCb .iy (-2) 0x36⟩ ∧
      (atCode 0xFFFE [0xFD, 0xCB, 0xFE, 0x36]).tryStep.1.pc = 2 ∧
      (atCode 0xFFFE [0xFD, 0xCB, 0xFE, 0x36]).tryStep.1.cycles = 23 := by
  have hlacking : (atCode 0xFFFE [0xFD, 0xCB, 0xFE, 0x36]).lacking? =
      some (.indexCb .iy (-2) 0x36) := by
    simp [atCode, lacking?, pc, Space.load, Space.get_set, Opcode.ofBytes?]
    decide
  obtain ⟨hiff, hstate, -⟩ := tryStep_fault (atCode 0xFFFE [0xFD, 0xCB, 0xFE, 0x36])
  have herror := (hiff ⟨0xFFFE, .indexCb .iy (-2) 0x36⟩).mpr ⟨rfl, rfl, hlacking⟩
  refine ⟨herror, ?_, ?_⟩
  · rw [hstate _ herror]
    decide
  · rw [hstate _ herror]
    rfl

end Machine

end Z80
