/-
  Z80.Proofs.StepLocality

  Two runs of one step from machines that differ in memory and ports.

  A step reads the four cells from the program counter on, two adjacent cells
  (`Machine.sourceCell`) and one port (`Machine.sourcePort`).  Machines that agree there
  and in the registers report the same and go on with the same registers; their spaces
  differ only where they did before, and not where the step writes.  The main statement
  is `tryStep_of_agreesOn`.
-/

import Z80.Proofs.ReadLocality
import Z80.Proofs.WriteFrame

namespace Z80

/-! ## The cells that are read -/

namespace Instr

/-- The first of the memory cells that an instruction reads. -/
def sourceCell (i : Instr) (m : Machine) : Word :=
  (i.sources m).headD 0

/-- The port that an instruction reads. -/
def sourcePort (i : Instr) (m : Machine) : Word :=
  (i.portSources m).headD 0

/-- An operand is at most one cell. -/
theorem eq_headD_of_mem_address? {m : Machine} {o : Operand} {a : Word}
    (h : a ∈ (m.address? o).toList) : a = (m.address? o).toList.headD 0 := by
  rw [Option.mem_toList] at h
  rw [h]
  rfl

/-- An instruction reads at most two cells, and these are adjacent. -/
theorem eq_sourceCell_of_mem_sources {i : Instr} {m : Machine} {a : Word}
    (h : a ∈ i.sources m) : a = i.sourceCell m ∨ a = i.sourceCell m + 1 := by
  have hpair {b : Word} (hb : a ∈ [b, b + 1]) : a = b ∨ a = b + 1 := by
    simpa using hb
  cases i with
  | ld dst src => exact .inl (eq_headD_of_mem_address? h)
  | alu op src => exact .inl (eq_headD_of_mem_address? h)
  | bit n src => exact .inl (eq_headD_of_mem_address? h)
  | inc dst => exact .inl (eq_headD_of_mem_address? h)
  | dec dst => exact .inl (eq_headD_of_mem_address? h)
  | rot op target copy => exact .inl (eq_headD_of_mem_address? h)
  | res n target copy => exact .inl (eq_headD_of_mem_address? h)
  | set n target copy => exact .inl (eq_headD_of_mem_address? h)
  | ldPairFrom rr nn => exact hpair h
  | pop rr => exact hpair h
  | ret cc? => exact hpair h
  | retn => exact hpair h
  | exSp rr => exact hpair h
  | ldAFromPair rr => exact .inl (List.mem_singleton.mp h)
  | ldAFrom nn => exact .inl (List.mem_singleton.mp h)
  | rld => exact .inl (List.mem_singleton.mp h)
  | rrd => exact .inl (List.mem_singleton.mp h)
  | block op dir repeats =>
    cases op with
    | input => cases h
    | _ => exact .inl (List.mem_singleton.mp h)
  -- the others read no cell
  | _ => cases h

theorem eq_sourcePort_of_mem_portSources {i : Instr} {m : Machine} {p : Word}
    (h : p ∈ i.portSources m) : p = i.sourcePort m := by
  cases i with
  | inA n => exact List.mem_singleton.mp h
  | inC r => exact List.mem_singleton.mp h
  | block op dir repeats =>
    cases op with
    | input => exact List.mem_singleton.mp h
    | _ => cases h
  | _ => cases h

end Instr

namespace Machine

/-- The first of the two adjacent cells that the next step may read besides the bytes of
    its instruction. -/
def sourceCell (m : Machine) : Word :=
  m.current.instr.sourceCell m

/-- The port that the next step may read. -/
def sourcePort (m : Machine) : Word :=
  m.current.instr.sourcePort m

theorem mem_of_mem_readCells {m : Machine} {a : Word} (h : a ∈ m.readCells) :
    a ∈ [m.pc, m.pc + 1, m.pc + 2, m.pc + 3, m.sourceCell, m.sourceCell + 1] := by
  unfold readCells at h
  split at h
  · cases h
  · obtain hcode | hsource := List.mem_append.mp h
    · exact List.mem_append_left [m.sourceCell, m.sourceCell + 1] hcode
    · have hcell : a = m.sourceCell ∨ a = m.sourceCell + 1 :=
        Instr.eq_sourceCell_of_mem_sources hsource
      apply List.mem_append_right [m.pc, m.pc + 1, m.pc + 2, m.pc + 3]
      simpa using hcell

theorem eq_sourcePort_of_mem_inputCells {m : Machine} {p : Word} (h : p ∈ m.inputCells) :
    p = m.sourcePort := by
  unfold inputCells at h
  split at h
  · cases h
  · exact Instr.eq_sourcePort_of_mem_portSources h

/-! ## The cells that are written -/

variable {m k : Machine}

/-- A byte goes to the same cell, whatever was there. -/
theorem get_set_congr (s t : Space) {a b : Word} (v : Byte) (hb : b ∈ [a]) :
    (s.set a v).get b = (t.set a v).get b := by
  rw [List.mem_singleton.mp hb, Space.get_set_self, Space.get_set_self]

/-- A word goes to the same two cells, whatever was there. -/
theorem get_setWord_congr (s t : Space) {a b : Word} (w : Word) (hb : b ∈ [a, a + 1]) :
    (s.setWord a w).get b = (t.setWord a w).get b := by
  simp only [List.mem_cons, List.not_mem_nil, or_false] at hb
  obtain rfl | rfl := hb
  · simp [Space.get_setWord]
  · simp [Space.get_setWord]

/-- A write to an operand leaves the byte in its cell, whatever was there. -/
theorem get_write_onto {o : Operand} {n₁ n₂ v : Byte} {a : Word}
    (ha : a ∈ o.destination.cells m n₁ n₂) :
    ((m.onto k).write (o.withDisp n₁.toInt8) v).mem.get a =
      (m.write (o.withDisp n₁.toInt8) v).mem.get a := by
  cases o with
  | hl => exact get_set_congr k.mem m.mem v ha
  | indexed x d => exact get_set_congr k.mem m.mem v ha
  | _ => cases ha

theorem get_push_onto (w : Word) {a : Word} (ha : a ∈ [m.regs.sp - 2, m.regs.sp - 1]) :
    ((m.onto k).push w).mem.get a = (m.push w).mem.get a := by
  have hnext : m.regs.sp - 1 = m.regs.sp - 2 + 1 := by grind
  rw [hnext] at ha
  exact get_setWord_congr k.mem m.mem _ ha

/-- Run on the same registers, with the same bytes to read, an instruction leaves the same
    bytes in the cells that it stores to. -/
theorem get_effect_onto (i : Instr) (n₁ n₂ : Byte)
    (hmem : ∀ a ∈ (i.withBytes n₁ n₂).sources m, k.mem.get a = m.mem.get a)
    (hports : ∀ p ∈ (i.withBytes n₁ n₂).portSources m, k.ports.get p = m.ports.get p)
    {a : Word} (ha : a ∈ i.destination.cells m n₁ n₂) :
    let j := i.withBytes n₁ n₂
    (j.effect (j.taken m) (m.onto k)).mem.get a = (j.effect (j.taken m) m).mem.get a := by
  intro j
  cases i with
  | ld dst src =>
    show ((m.onto k).write _ ((m.onto k).read _)).mem.get a = _
    rw [read_onto hmem]
    exact get_write_onto ha
  | ldByte dst n => exact get_write_onto ha
  | inc dst =>
    show ((m.onto k).write _ ((m.onto k).read _ + 1)).mem.get a = _
    rw [read_onto hmem]
    exact get_write_onto ha
  | dec dst =>
    show ((m.onto k).write _ ((m.onto k).read _ - 1)).mem.get a = _
    rw [read_onto hmem]
    exact get_write_onto ha
  | rot op target copy =>
    show ((m.onto k).rotate op _ copy).mem.get a = (m.rotate op _ copy).mem.get a
    rw [mem_rotate, mem_rotate, read_onto hmem]
    exact get_write_onto ha
  | res n target copy =>
    show (((m.onto k).write _ _).copyTo copy _).mem.get a = ((m.write _ _).copyTo copy _).mem.get a
    rw [mem_copyTo, mem_copyTo, read_onto hmem]
    exact get_write_onto ha
  | set n target copy =>
    show (((m.onto k).write _ _).copyTo copy _).mem.get a = ((m.write _ _).copyTo copy _).mem.get a
    rw [mem_copyTo, mem_copyTo, read_onto hmem]
    exact get_write_onto ha
  | ldAToPair rr =>
    exact get_set_congr k.mem m.mem _ ha
  | ldATo nn => exact get_set_congr k.mem m.mem _ ha
  | ldPairTo rr nn =>
    show ((m.onto k).storeWord _ ((m.onto k).pair rr)).mem.get a = _
    rw [pair_onto]
    exact get_setWord_congr k.mem m.mem _ ha
  | exSp rr =>
    show (((m.onto k).storeWord _ ((m.onto k).pair rr)).setPair rr _).mem.get a =
      ((m.storeWord _ (m.pair rr)).setPair rr _).mem.get a
    rw [pair_onto, mem_setPair, mem_setPair]
    exact get_setWord_congr k.mem m.mem _ ha
  | push rr =>
    show ((m.onto k).push ((m.onto k).pair rr)).mem.get a = _
    rw [pair_onto]
    exact get_push_onto _ ha
  | rst target => exact get_push_onto _ ha
  | call cc? nn =>
    -- the cells below the stack are a destination only if the call happens
    dsimp only [Instr.destination, Destination.cells] at ha
    split at ha
    case isFalse => cases ha
    case isTrue htaken =>
      have hj : j.taken m = true := htaken
      rw [hj]
      exact get_push_onto m.pc ha
  | rld =>
    show (k.mem.set m.hl (rotateDigitsLeft m.a (k.mem.get m.hl)).2).get a = _
    rw [hmem m.hl (List.mem_singleton.mpr rfl)]
    exact get_set_congr k.mem m.mem _ ha
  | rrd =>
    show (k.mem.set m.hl (rotateDigitsRight m.a (k.mem.get m.hl)).2).get a = _
    rw [hmem m.hl (List.mem_singleton.mpr rfl)]
    exact get_set_congr k.mem m.mem _ ha
  | block op dir repeats =>
    show (((m.onto k).block op dir).jumpIf _ _).mem.get a = ((m.block op dir).jumpIf _ _).mem.get a
    rw [mem_jumpIf, mem_jumpIf]
    cases op with
    | load =>
      show (k.mem.set m.de (k.mem.get m.hl)).get a = _
      rw [hmem m.hl (List.mem_singleton.mpr rfl)]
      exact get_set_congr k.mem m.mem _ ha
    | input =>
      show (k.mem.set m.hl (k.ports.get m.bc)).get a = _
      rw [hports m.bc (List.mem_singleton.mpr rfl)]
      exact get_set_congr k.mem m.mem _ ha
    | compare => cases ha
    | output => cases ha
  -- the others store nothing
  | _ => cases ha

/-- The same of the port that it outputs to. -/
theorem get_ports_effect_onto (i : Instr) (n₁ n₂ : Byte) (taken : Bool)
    (hmem : ∀ a ∈ (i.withBytes n₁ n₂).sources m, k.mem.get a = m.mem.get a)
    {p : Word} (hp : p ∈ i.portDestination.cells m n₁) :
    ((i.withBytes n₁ n₂).effect taken (m.onto k)).ports.get p =
      ((i.withBytes n₁ n₂).effect taken m).ports.get p := by
  cases i with
  | outA n => exact get_set_congr k.ports m.ports _ hp
  | outC r => exact get_set_congr k.ports m.ports _ hp
  | block op dir repeats =>
    show (((m.onto k).block op dir).jumpIf _ _).ports.get p =
      ((m.block op dir).jumpIf _ _).ports.get p
    rw [ports_jumpIf, ports_jumpIf]
    cases op with
    | output =>
      show (k.ports.set _ (k.mem.get m.hl)).get p = _
      rw [hmem m.hl (List.mem_singleton.mpr rfl)]
      exact get_set_congr k.ports m.ports _ hp
    | _ => cases hp
  | _ => cases hp

/-! ## One step -/

/-- The machine `k` has the registers, the interrupt mode and the halt latch of `m`, and
    its bytes in some cells of memory and some ports. -/
structure AgreesOn (m : Machine) (cells ports : List Word) (k : Machine) : Prop where
  regs : k.regs = m.regs
  im : k.im = m.im
  halted : k.halted = m.halted
  mem : ∀ a ∈ cells, k.mem.get a = m.mem.get a
  ports : ∀ p ∈ ports, k.ports.get p = m.ports.get p

theorem AgreesOn.eq_onto {cells ports : List Word} (h : m.AgreesOn cells ports k) :
    k = m.onto k := by
  rw [onto, ← h.regs, ← h.im, ← h.halted]

theorem fault?_onto (h : ∀ a ∈ [m.pc, m.pc + 1, m.pc + 2, m.pc + 3], k.mem.get a = m.mem.get a) :
    (m.onto k).fault? = m.fault? := by
  rw [fault?, fault?, current_onto h]
  rfl

/-- A step leaves the same bytes in the cells that it stores to and in the port that it
    outputs to. -/
theorem get_step_onto (hmem : ∀ a ∈ m.readCells, k.mem.get a = m.mem.get a)
    (hports : ∀ p ∈ m.inputCells, k.ports.get p = m.ports.get p) :
    (∀ a ∈ m.storeCells, (m.onto k).step.mem.get a = m.step.mem.get a) ∧
    ∀ p ∈ m.outputCells, (m.onto k).step.ports.get p = m.step.ports.get p := by
  cases h : m.halted with
  | true =>
    have hstore : m.storeCells = [] := by rw [storeCells, h]; rfl
    have houtput : m.outputCells = [] := by rw [outputCells, h]; rfl
    rw [hstore, houtput]
    exact ⟨fun _ ha => absurd ha List.not_mem_nil, fun _ hp => absurd hp List.not_mem_nil⟩
  | false =>
    obtain ⟨hdest, hport⟩ := Page.template_destination m.encoding.page m.encoding.op
    have hinstr : m.current.instr = m.template.instr.withBytes m.encoding.n₁ m.encoding.n₂ := by
      rw [current_eq_withBytes]
    have hstep := step_onto h hmem
    -- sources and destinations are those of the machine that has fetched the instruction
    have hsources : ∀ a ∈ m.current.instr.sources (m.fetch m.current),
        k.mem.get a = m.mem.get a := by
      rw [readCells, h, if_neg Bool.false_ne_true] at hmem
      rw [sources_fetch]
      exact fun a ha => hmem a (List.mem_append_right _ ha)
    have hportSources : ∀ p ∈ m.current.instr.portSources (m.fetch m.current),
        k.ports.get p = m.ports.get p := by
      rw [inputCells, h, if_neg Bool.false_ne_true] at hports
      rw [portSources_fetch]
      exact hports
    rw [hinstr] at hsources hportSources hstep
    rw [hstep, step_of_running h, execute, hinstr]
    constructor
    · intro a ha
      rw [storeCells, h, if_neg Bool.false_ne_true, ← hdest, ← cells_fetch m m.current] at ha
      exact get_effect_onto m.template.instr _ _ hsources hportSources ha
    · intro p hp
      rw [outputCells, h, if_neg Bool.false_ne_true, ← hport, ← portCells_fetch m m.current] at hp
      exact get_ports_effect_onto m.template.instr _ _ _ hsources hp

/-- Two machines that agree on the registers, the four cells from the program counter on,
    two more adjacent cells and one port, all of them found on the first machine, report
    the same about the next step, its T-states or its fault, and have the same registers
    after it.  A cell that held the same byte in both still does, and so does every cell
    that the step stores to, whatever it held; the same goes for the ports. -/
theorem tryStep_of_agreesOn (m k : Machine)
    (h : m.AgreesOn [m.pc, m.pc + 1, m.pc + 2, m.pc + 3, m.sourceCell, m.sourceCell + 1]
      [m.sourcePort] k) :
    k.tryStep.2 = m.tryStep.2 ∧
    k.tryStep.1.regs = m.tryStep.1.regs ∧
    k.tryStep.1.im = m.tryStep.1.im ∧
    k.tryStep.1.halted = m.tryStep.1.halted ∧
    (∀ a, k.mem.get a = m.mem.get a ∨ a ∈ m.storeCells →
      k.tryStep.1.mem.get a = m.tryStep.1.mem.get a) ∧
    ∀ p, k.ports.get p = m.ports.get p ∨ p ∈ m.outputCells →
      k.tryStep.1.ports.get p = m.tryStep.1.ports.get p := by
  have hmem : ∀ a ∈ m.readCells, k.mem.get a = m.mem.get a :=
    fun a ha => h.mem a (mem_of_mem_readCells ha)
  have hports : ∀ p ∈ m.inputCells, k.ports.get p = m.ports.get p :=
    fun p hp => h.ports p (List.mem_singleton.mpr (eq_sourcePort_of_mem_inputCells hp))
  have hfault : k.fault? = m.fault? := by
    rw [h.eq_onto]
    exact fault?_onto fun a ha => h.mem a (List.mem_append_left _ ha)
  -- both steps write the same cells with the same bytes
  obtain ⟨stored, sent, hstep⟩ := m.exists_step_onto
  have hk : k.step = { m.step.onto (k.patch stored sent) with cycles := m.step.cycles } := by
    rw [← hstep k hmem hports, ← h.eq_onto]
  have hm : m.step = { m.step.onto (m.patch stored sent) with cycles := m.step.cycles } :=
    hstep m (fun _ _ => rfl) fun _ _ => rfl
  obtain ⟨hstored, hsent⟩ := get_step_onto hmem hports
  rw [← h.eq_onto] at hstored hsent
  refine ⟨?_, ?_, ?_, ?_, ?_, ?_⟩
  · simp only [tryStep, hfault, hk]
  · show k.step.regs = m.step.regs
    rw [hk]
    rfl
  · show k.step.im = m.step.im
    rw [hk]
    rfl
  · show k.step.halted = m.step.halted
    rw [hk]
    rfl
  · rintro a (hsame | ha)
    · show k.step.mem.get a = m.step.mem.get a
      rw [hk, hm]
      exact Space.get_write_congr (.inr hsame)
    · exact hstored a ha
  · rintro p (hsame | hp)
    · show k.step.ports.get p = m.step.ports.get p
      rw [hk, hm]
      exact Space.get_write_congr (.inr hsame)
    · exact hsent p hp

/-- PUSH HL over a cell that differs: the difference is gone, the report the same. -/
theorem tryStep_of_agreesOn_atCode_push :
    let m := atCode 0x8000 [0xE5]
    let k := { m with mem := m.mem.set 0xFFFE 0x07, ports := m.ports.set 5 9, cycles := 99 }
    m.AgreesOn [m.pc, m.pc + 1, m.pc + 2, m.pc + 3, m.sourceCell, m.sourceCell + 1]
        [m.sourcePort] k ∧
      k.mem.get 0xFFFE ≠ m.mem.get 0xFFFE ∧
      k.tryStep.1.mem.get 0xFFFE = m.tryStep.1.mem.get 0xFFFE ∧
      k.tryStep.2 = m.tryStep.2 := by
  intro m k
  have hpc : m.pc = 0x8000 := rfl
  have hcurrent : m.current = ⟨.push (.bank .hl), 1, false⟩ := by
    simp [m, current, atCode, pc, Space.load, Space.get_set]
    rfl
  have hcell : m.sourceCell = 0 := by rw [sourceCell, hcurrent]; rfl
  have hport : m.sourcePort = 0 := by rw [sourcePort, hcurrent]; rfl
  have hagrees : m.AgreesOn [m.pc, m.pc + 1, m.pc + 2, m.pc + 3, m.sourceCell, m.sourceCell + 1]
      [m.sourcePort] k := by
    rw [hpc, hcell, hport]
    refine ⟨rfl, rfl, rfl, fun a ha => ?_, fun p hp => ?_⟩
    · have hne : a ≠ 0xFFFE := by
        rintro rfl
        exact absurd ha (by decide)
      exact Space.get_set_of_ne _ _ hne
    · have hne : p ≠ 5 := by
        rintro rfl
        exact absurd hp (by decide)
      exact Space.get_set_of_ne _ _ hne
  have hstore : (0xFFFE : Word) ∈ m.storeCells := by
    have hcode : m.encoding = ⟨.main none, 0xE5, 0, 0⟩ := by
      simp [m, atCode, encoding, pc, Space.load, Space.get_set, Encoding.ofBytes, Index.code]
    rw [storeCells, hcode]
    decide
  obtain ⟨hreport, -, -, -, hmem, -⟩ := tryStep_of_agreesOn m k hagrees
  refine ⟨hagrees, ?_, hmem 0xFFFE (.inr hstore), hreport⟩
  have hk : k.mem.get 0xFFFE = 0x07 := Space.get_set_self _ _ _
  have hm : m.mem.get 0xFFFE = 0 := by
    simp [m, atCode, Space.load, Space.get_set]
  rw [hk, hm]
  decide

end Machine

end Z80
