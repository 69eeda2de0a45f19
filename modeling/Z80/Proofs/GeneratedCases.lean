/-
  Z80.Proofs.GeneratedCases

  Cases made from random numbers, and what running them finds.

  The machine that a generated case starts from is the one that the generator ran
  (`start_generate`), so the check of the case repeats the same step and finds no
  difference.  The initial state lists whatever the instruction reads
  (`readCells_generate`), so the same comes out on a machine whose memory and ports
  hold anything else.
-/

import Mathlib.Data.List.Nodup
import Z80.Case.Check
import Z80.Case.Generate
import Z80.Proofs.Encoding
import Z80.Proofs.ReadLocality

namespace Z80

/-! ## The directions of port accesses -/

namespace PortAccess

variable (a : Word) (v : Byte)

theorem isRead_read : (PortAccess.mk a v "r").isRead = true := by simp [isRead]

theorem isRead_write : (PortAccess.mk a v "w").isRead = false := by simp [isRead]

theorem isWrite_read : (PortAccess.mk a v "r").isWrite = false := by simp [isWrite]

theorem isWrite_write : (PortAccess.mk a v "w").isWrite = true := by simp [isWrite]

end PortAccess

/-! ## The check of a generated case -/

namespace Case

variable (opcode : Byte) (w : Draw)

theorem portReads_generate : (generate opcode w).portReads = w.portCells := by
  simp [portReads, generate, List.filter_map, Function.comp_def, PortAccess.isRead_read,
    PortAccess.isRead_write, PortAccess.cell, List.filter_true, List.filter_false]

theorem portWrites_generate : (generate opcode w).portWrites =
    (Space.changed (prepared opcode w).ports (prepared opcode w).step.ports).map
      fun a => (a, (prepared opcode w).step.ports.get a) := by
  simp [portWrites, generate, List.filter_map, Function.comp_def, PortAccess.isWrite_read,
    PortAccess.isWrite_write, PortAccess.cell, List.filter_true, List.filter_false]

/-- The check of a generated case starts where the generator did. -/
theorem start_generate : (generate opcode w).start = prepared opcode w := by
  rw [start, startOn, portReads_generate]
  rfl

/-- The final state lists what was seeded and what has changed. -/
theorem final_generate : (generate opcode w).final =
    { CaseState.ofMachine (prepared opcode w).step with
      ram := (Space.addressesWhere fun a => ((w.initial opcode).ram.map Prod.fst).contains a ||
        (prepared opcode w).mem.get a != (prepared opcode w).step.mem.get a).map
          fun a => (a, (prepared opcode w).step.mem.get a) } := by
  simp only [generate]

theorem cycles_generate : (generate opcode w).cycles =
    List.replicate (prepared opcode w).step.cycles untraced := by
  simp only [generate]

/-- The registers of a case state are compared apart from its memory cells. -/
theorem value_withRam (mask : Byte) (s : CaseState) (ram : List (Word × Byte))
    (reg : CaseRegister) : reg.value mask { s with ram } = reg.value mask s := by
  cases reg <;> rfl

/-- A case is passed when every comparison finds what is expected. -/
theorem verdict_eq_none_iff (c : Case) (mask : Byte) :
    c.verdict mask = none ↔ ∀ x ∈ c.comparisons mask c.start.step, x.found = x.expected := by
  simp [verdict, mismatch?, Comparison.differs]

/-- The generator and the check agree: whatever was drawn, a generated case is passed. -/
theorem verdict_generate (opcode : Byte) (w : Draw) (mask : Byte) :
    (generate opcode w).verdict mask = none := by
  rw [verdict_eq_none_iff, start_generate]
  -- nothing is needed of the step but that both sides ran the same one
  generalize hafter : (prepared opcode w).step = after
  intro x hx
  rw [comparisons, portWrites_generate, final_generate, cycles_generate, hafter] at hx
  simp only [List.mem_append, List.mem_map] at hx
  obtain ((⟨reg, -, rfl⟩ | ⟨⟨a, v⟩, ⟨b, -, hcell⟩, rfl⟩) | ⟨⟨p, v⟩, ⟨q, -, hport⟩, rfl⟩) |
    hcycles := hx
  · exact (value_withRam mask _ _ reg).symm
  · obtain ⟨rfl, rfl⟩ := Prod.mk.inj hcell
    rfl
  · obtain ⟨rfl, rfl⟩ := Prod.mk.inj hport
    rfl
  · rw [List.mem_singleton.mp hcycles]
    exact List.length_replicate.symm

end Case

/-! ## The cells of the initial state -/

namespace Draw

/-- What `firstOfEach` does with a further cell. -/
private theorem find?_foldl_keep (cells kept : List (Word × Byte)) (a : Word) :
    (cells.foldl (fun kept c => if kept.any (·.1 == c.1) then kept else kept ++ [c]) kept).find?
        (·.1 == a) = (kept ++ cells).find? (·.1 == a) := by
  induction cells generalizing kept with
  | nil => rw [List.foldl_nil, List.append_nil]
  | cons c cells ih =>
    rw [List.foldl_cons, ih]
    split
    case isTrue h =>
      by_cases ha : c.1 = a
      · -- the address is kept already, so the further cell is not the first
        have hfound : (kept.find? (·.1 == a)).isSome := by
          rwa [List.find?_isSome, ← List.any_eq_true, ← ha]
        obtain ⟨b, hb⟩ := Option.isSome_iff_exists.mp hfound
        rw [List.find?_append, List.find?_append, hb]
        rfl
      · have hne : (c.1 == a) = false := beq_eq_false_iff_ne.mpr ha
        rw [List.find?_append, List.find?_append, List.find?_cons, hne]
    case isFalse h => rw [List.append_assoc, List.singleton_append]

private theorem nodup_foldl_keep (cells kept : List (Word × Byte))
    (h : (kept.map Prod.fst).Nodup) :
    ((cells.foldl (fun kept c => if kept.any (·.1 == c.1) then kept else kept ++ [c])
      kept).map Prod.fst).Nodup := by
  induction cells generalizing kept with
  | nil => exact h
  | cons c cells ih =>
    rw [List.foldl_cons]
    apply ih
    split
    case isTrue => exact h
    case isFalse hnew =>
      have hout : c.1 ∉ kept.map Prod.fst := by
        intro hmem
        obtain ⟨b, hb, heq⟩ := List.mem_map.mp hmem
        exact hnew (List.any_eq_true.mpr ⟨b, hb, beq_iff_eq.mpr heq⟩)
      rw [List.map_append, List.map_singleton, ← List.concat_eq_append]
      exact List.Nodup.concat hout h

/-- Looking up an address finds its first cell. -/
theorem find?_firstOfEach (cells : List (Word × Byte)) (a : Word) :
    (firstOfEach cells).find? (·.1 == a) = cells.find? (·.1 == a) :=
  find?_foldl_keep cells [] a

/-- No address occurs twice. -/
theorem nodup_firstOfEach (cells : List (Word × Byte)) :
    ((firstOfEach cells).map Prod.fst).Nodup :=
  nodup_foldl_keep cells [] List.nodup_nil

/-- Every address occurs. -/
theorem mem_firstOfEach {cells : List (Word × Byte)} {a : Word} (h : a ∈ cells.map Prod.fst) :
    a ∈ (firstOfEach cells).map Prod.fst := by
  obtain ⟨c, hc, rfl⟩ := List.mem_map.mp h
  have hfound : ((firstOfEach cells).find? (·.1 == c.1)).isSome := by
    rw [find?_firstOfEach, List.find?_isSome]
    exact ⟨c, hc, beq_self_eq_true c.1⟩
  obtain ⟨b, hb, heq⟩ := List.find?_isSome.mp hfound
  exact List.mem_map.mpr ⟨b, hb, beq_iff_eq.mp heq⟩

end Draw

/-- Of cells with distinct addresses each is there after they are written. -/
theorem Space.get_write_of_mem (s : Space) {cells : List (Word × Byte)} {a : Word} {v : Byte}
    (hdistinct : (cells.map Prod.fst).Nodup) (h : (a, v) ∈ cells) :
    (s.write cells).get a = v := by
  induction cells generalizing s with
  | nil => cases h
  | cons c cells ih =>
    rw [List.map_cons, List.nodup_cons] at hdistinct
    rw [write_cons]
    obtain rfl | htail := List.mem_cons.mp h
    · rw [get_write_of_not_mem _ hdistinct.1, get_set_self]
    · exact ih _ hdistinct.2 htail

/-! ## What an instruction without prefix reads -/

/-- Whether everything that an instruction reads is at a register pair, at the top of
    the stack or at its own address. -/
def Instr.plainSources : Instr → Bool
  | ld _ src | alu _ src | bit _ src => !src.hasDisp
  | inc dst | dec dst => !dst.hasDisp
  | rot _ target _ | res _ target _ | set _ target _ => !target.hasDisp
  | ldAFromPair rr => rr != .af
  | _ => true

theorem Page.plainSources_template (op : Byte) :
    ((main none).template op).instr.plainSources = true := by
  revert op
  rw [Byte.forall_iff]
  decide +kernel

/-- The cells at the register pairs, at the top of the stack and at the address `nn`. -/
def Machine.pointedCells (m : Machine) (nn : Word) : List Word :=
  [m.bc, m.de, m.hl, m.regs.sp, m.regs.sp + 1, nn, nn + 1]

theorem Machine.mem_pointedCells {m : Machine} {nn a : Word} : a ∈ m.pointedCells nn ↔
    a = m.bc ∨ a = m.de ∨ a = m.hl ∨ a = m.regs.sp ∨ a = m.regs.sp + 1 ∨ a = nn ∨
      a = nn + 1 := by
  simp only [pointedCells, List.mem_cons, List.not_mem_nil, or_false]

/-- The cells that an instruction without prefix may read. -/
theorem Instr.sources_withBytes {i : Instr} (h : i.plainSources = true) (m : Machine)
    (n₁ n₂ : Byte) :
    ∀ a ∈ (i.withBytes n₁ n₂).sources m, a ∈ m.pointedCells (Word.ofBytes n₂ n₁) := by
  intro a ha
  have hcell (hmem : a ∈ [m.hl]) : a ∈ m.pointedCells (Word.ofBytes n₂ n₁) :=
    Machine.mem_pointedCells.mpr (.inr (.inr (.inl (List.mem_singleton.mp hmem))))
  have hoperand {o : Operand} (ho : (!o.hasDisp) = true)
      (hmem : a ∈ (m.address? (o.withDisp n₁.toInt8)).toList) :
      a ∈ m.pointedCells (Word.ofBytes n₂ n₁) := by
    cases o with
    | indexed x d => cases ho
    | hl => exact hcell hmem
    | _ => exact absurd hmem List.not_mem_nil
  have hpair {b : Word} (hmem : a ∈ [b, b + 1]) : a = b ∨ a = b + 1 := by
    simpa only [List.mem_cons, List.not_mem_nil, or_false] using hmem
  have hstack (hmem : a ∈ [m.regs.sp, m.regs.sp + 1]) :
      a ∈ m.pointedCells (Word.ofBytes n₂ n₁) := by
    rw [Machine.mem_pointedCells]
    grind [hpair hmem]
  cases i with
  | ld dst src => exact hoperand h ha
  | alu op src => exact hoperand h ha
  | bit n src => exact hoperand h ha
  | inc dst => exact hoperand h ha
  | dec dst => exact hoperand h ha
  | rot op target copy => exact hoperand h ha
  | res n target copy => exact hoperand h ha
  | set n target copy => exact hoperand h ha
  | ldAFromPair rr =>
    have hrr : a = m.pair (.bank rr) := List.mem_singleton.mp ha
    rw [Machine.mem_pointedCells]
    cases rr with
    | bc => exact .inl hrr
    | de => exact .inr (.inl hrr)
    | hl => exact .inr (.inr (.inl hrr))
    | af => cases h
  | ldAFrom nn =>
    have hnn : a = Word.ofBytes n₂ n₁ := List.mem_singleton.mp ha
    rw [Machine.mem_pointedCells]
    grind
  | ldPairFrom rr nn =>
    rw [Machine.mem_pointedCells]
    grind [hpair ha]
  | pop rr => exact hstack ha
  | ret cc? => exact hstack ha
  | retn => exact hstack ha
  | exSp rr => exact hstack ha
  | rld => exact hcell ha
  | rrd => exact hcell ha
  | block op dir repeats =>
    cases op with
    | input => cases ha
    | _ => exact hcell ha
  | unimplemented opcode => cases opcode <;> cases ha
  | _ => cases ha

/-- The port that an instruction may read. -/
theorem Instr.portSources_withBytes (i : Instr) (m : Machine) (n₁ n₂ : Byte) :
    ∀ p ∈ (i.withBytes n₁ n₂).portSources m, p ∈ [Word.ofBytes m.a n₁, m.bc] := by
  intro p hp
  cases i with
  | inA n =>
    rw [List.mem_singleton.mp hp]
    exact List.mem_cons_self
  | inC r =>
    rw [List.mem_singleton.mp hp]
    exact List.mem_cons_of_mem _ List.mem_cons_self
  | block op dir repeats =>
    cases op with
    | input =>
      rw [List.mem_singleton.mp hp]
      exact List.mem_cons_of_mem _ List.mem_cons_self
    | _ => cases hp
  | unimplemented opcode => cases opcode <;> cases hp
  | _ => cases hp

namespace Case

variable {opcode : Byte} (w : Draw)

theorem ram_initial (opcode : Byte) :
    (w.initial opcode).ram = Draw.firstOfEach (w.candidates opcode) := by
  rw [Draw.initial]

theorem snapshot_initial (opcode : Byte) :
    (w.initial opcode).snapshot = w.registers.snapshot := by
  rw [Draw.initial, CaseState.snapshot, CaseState.snapshot]

theorem mem_prepared (opcode : Byte) :
    (prepared opcode w).mem = (Machine.initial {}).mem.write (w.initial opcode).ram := by
  rw [prepared, Machine.apply]

theorem regs_prepared (opcode : Byte) :
    (prepared opcode w).regs = w.registers.snapshot.registers := by
  rw [prepared, Machine.apply_eq_restore, Machine.restore, snapshot_initial]

theorem pc_prepared (opcode : Byte) : (prepared opcode w).pc = w.registers.pc := by
  rw [Machine.pc, regs_prepared]
  rfl

theorem bc_prepared (opcode : Byte) :
    (prepared opcode w).bc = Word.ofBytes w.registers.b w.registers.c := by
  rw [Machine.bc, regs_prepared]
  rfl

theorem halted_prepared (opcode : Byte) : (prepared opcode w).halted = false := by
  rw [prepared, Machine.apply]

/-- A byte in a list of candidates is found in memory unless another candidate for its
    address comes first. -/
theorem get_prepared (opcode : Byte) {a : Word} {v : Byte}
    (h : (w.candidates opcode).find? (·.1 == a) = some (a, v)) :
    (prepared opcode w).mem.get a = v := by
  have hfirst : (a, v) ∈ Draw.firstOfEach (w.candidates opcode) :=
    List.mem_of_find?_eq_some ((Draw.find?_firstOfEach _ a).trans h)
  rw [mem_prepared, ram_initial]
  exact Space.get_write_of_mem _ (Draw.nodup_firstOfEach _) hfirst

/-- The instruction that a draw is made for, with the operand bytes of the draw. -/
theorem current_prepared (h : supported opcode = true) :
    (prepared opcode w).current.instr =
      ((Page.main none).template opcode).instr.withBytes w.operand₁ w.operand₂ := by
  have hop : (prepared opcode w).mem.get w.registers.pc = opcode :=
    get_prepared w opcode (by simp [Draw.candidates])
  have hfirst : (prepared opcode w).mem.get (w.registers.pc + 1) = w.operand₁ :=
    get_prepared w opcode (by simp [Draw.candidates])
  have hsecond : (prepared opcode w).mem.get (w.registers.pc + 2) = w.operand₂ :=
    get_prepared w opcode (by simp [Draw.candidates])
  rw [Machine.current, pc_prepared, hop, hfirst, hsecond, decode_eq_decode,
    Encoding.ofBytes_main (Page.ne_prefix (by decide) h)]
  dsimp only
  rw [Page.decode_eq_withBytes]

/-- The addresses of the candidates: the instruction, and what it may point at. -/
theorem addresses_candidates (opcode : Byte) : (w.candidates opcode).map Prod.fst =
    [w.registers.pc, w.registers.pc + 1, w.registers.pc + 2, w.registers.pc + 3] ++
      [Word.ofBytes w.registers.b w.registers.c, Word.ofBytes w.registers.d w.registers.e,
        Word.ofBytes w.registers.h w.registers.l, w.registers.sp, w.registers.sp + 1,
        Word.ofBytes w.operand₂ w.operand₁, Word.ofBytes w.operand₂ w.operand₁ + 1] := rfl

/-- The initial state lists every cell that the instruction reads. -/
theorem readCells_prepared (h : supported opcode = true) :
    ∀ a ∈ (prepared opcode w).readCells, a ∈ (w.initial opcode).ram.map Prod.fst := by
  have hde : (prepared opcode w).de = Word.ofBytes w.registers.d w.registers.e := by
    rw [Machine.de, regs_prepared]
    rfl
  have hhl : (prepared opcode w).hl = Word.ofBytes w.registers.h w.registers.l := by
    rw [Machine.hl, regs_prepared]
    rfl
  have hsp : (prepared opcode w).regs.sp = w.registers.sp := by
    rw [regs_prepared]
    rfl
  have hsources := Instr.sources_withBytes (Page.plainSources_template opcode)
    (prepared opcode w) w.operand₁ w.operand₂
  rw [Machine.pointedCells, bc_prepared, hde, hhl, hsp] at hsources
  -- the code is listed first, then every place that the instruction may point at
  intro a ha
  rw [Machine.readCells, halted_prepared, if_neg Bool.false_ne_true, current_prepared w h,
    pc_prepared] at ha
  rw [ram_initial]
  apply Draw.mem_firstOfEach
  rw [addresses_candidates]
  obtain hcode | hsource := List.mem_append.mp ha
  · exact List.mem_append_left _ hcode
  · exact List.mem_append_right _ (hsources a hsource)

/-- The port reads list the port that the instruction reads. -/
theorem inputCells_prepared (h : supported opcode = true) :
    ∀ p ∈ (prepared opcode w).inputCells, p ∈ w.portCells.map Prod.fst := by
  have ha : (prepared opcode w).a = w.registers.a := by
    rw [Machine.a, regs_prepared]
    rfl
  have hsources := Instr.portSources_withBytes ((Page.main none).template opcode).instr
    (prepared opcode w) w.operand₁ w.operand₂
  rw [ha, bc_prepared] at hsources
  rw [Machine.inputCells, halted_prepared, if_neg Bool.false_ne_true, current_prepared w h]
  exact hsources

end Case

/-! ## Running a generated case on any machine -/

theorem Space.mem_addressesWhere {p : Word → Bool} {a : Word} :
    a ∈ addressesWhere p ↔ p a = true := by
  have := a.toNat_lt
  rw [addressesWhere, mem_addressesBelow p 65536 (Nat.le_refl _)]
  simp only [List.not_mem_nil, or_false, and_iff_right_iff_imp]
  exact fun _ => this

namespace Case

variable {opcode : Byte} (w : Draw)

/-- A machine brought to the beginning of a case keeps of its own only what the case
    does not name. -/
theorem start_onto_startOn (c : Case) (m : Machine) : c.start.onto (c.startOn m) = c.startOn m :=
  rfl

theorem mem_startOn (c : Case) (m : Machine) :
    (c.startOn m).mem = m.mem.write c.initial.ram := rfl

theorem ports_startOn (c : Case) (m : Machine) :
    (c.startOn m).ports = m.ports.write c.portReads := rfl

theorem initial_generate (opcode : Byte) : (generate opcode w).initial = w.initial opcode := by
  rw [generate]

/-- The start of a generated case lists all that its instruction reads. -/
theorem readCells_generate (h : supported opcode = true) :
    (∀ a ∈ (generate opcode w).start.readCells,
      a ∈ (generate opcode w).initial.ram.map Prod.fst) ∧
    ∀ p ∈ (generate opcode w).start.inputCells,
      p ∈ (generate opcode w).portReads.map Prod.fst := by
  rw [start_generate, initial_generate, portReads_generate]
  exact ⟨readCells_prepared w h, inputCells_prepared w h⟩

/-- The instruction of a case that lists all that it reads does on every machine the
    same as on the one of the check. -/
theorem exists_step_startOn (c : Case)
    (hcells : ∀ a ∈ c.start.readCells, a ∈ c.initial.ram.map Prod.fst)
    (hports : ∀ p ∈ c.start.inputCells, p ∈ c.portReads.map Prod.fst) :
    ∃ stored sent, ∀ m : Machine, (c.startOn m).step =
      { c.start.step.onto ((c.startOn m).patch stored sent) with
        cycles := c.start.step.cycles } := by
  obtain ⟨stored, sent, hstep⟩ := c.start.exists_step_onto
  refine ⟨stored, sent, fun m => ?_⟩
  rw [← hstep (c.startOn m), start_onto_startOn]
  · intro a ha
    rw [start, mem_startOn, mem_startOn]
    exact Space.get_write_congr (.inl (hcells a ha))
  · intro p hp
    rw [start, ports_startOn, ports_startOn]
    exact Space.get_write_congr (.inl (hports p hp))

theorem ofMachine_onto (m k : Machine) (n : Nat) :
    CaseState.ofMachine { m.onto k with cycles := n } = CaseState.ofMachine m := rfl

/-- On any two machines the instruction of a case that lists all that it reads takes the
    same time, and leaves the same registers and the same bytes in the cells that the case
    lists and in those that change in the check. -/
theorem step_startOn (c : Case)
    (hcells : ∀ a ∈ c.start.readCells, a ∈ c.initial.ram.map Prod.fst)
    (hports : ∀ p ∈ c.start.inputCells, p ∈ c.portReads.map Prod.fst) (m₁ m₂ : Machine) :
    (c.startOn m₁).step.cycles = (c.startOn m₂).step.cycles ∧
    CaseState.ofMachine (c.startOn m₁).step = CaseState.ofMachine (c.startOn m₂).step ∧
    (∀ a, a ∈ c.initial.ram.map Prod.fst ∨ c.start.mem.get a ≠ c.start.step.mem.get a →
      (c.startOn m₁).step.mem.get a = (c.startOn m₂).step.mem.get a) ∧
    ∀ p, c.start.ports.get p ≠ c.start.step.ports.get p →
      (c.startOn m₁).step.ports.get p = (c.startOn m₂).step.ports.get p := by
  obtain ⟨stored, sent, hstep⟩ := exists_step_startOn c hcells hports
  -- what changes in the check is among the cells written
  have hmem : c.start.step.mem = c.start.mem.write stored :=
    congrArg Machine.mem (hstep (.initial {}))
  have hsent : c.start.step.ports = c.start.ports.write sent :=
    congrArg Machine.ports (hstep (.initial {}))
  refine ⟨?_, ?_, ?_, ?_⟩
  · rw [hstep m₁, hstep m₂]
  · rw [hstep m₁, hstep m₂, ofMachine_onto, ofMachine_onto]
  · intro a ha
    rw [hstep m₁, hstep m₂]
    show ((c.startOn m₁).mem.write stored).get a = ((c.startOn m₂).mem.write stored).get a
    apply Space.get_write_congr
    obtain hlisted | hchanged := ha
    · right
      rw [mem_startOn, mem_startOn]
      exact Space.get_write_congr (.inl hlisted)
    · left
      by_contra hnot
      rw [hmem, Space.get_write_of_not_mem _ hnot] at hchanged
      exact hchanged rfl
  · intro p hp
    rw [hstep m₁, hstep m₂]
    show ((c.startOn m₁).ports.write sent).get p = ((c.startOn m₂).ports.write sent).get p
    apply Space.get_write_congr
    left
    by_contra hnot
    rw [hsent, Space.get_write_of_not_mem _ hnot] at hp
    exact hp rfl

/-- The final state lists what is in the initial state or changes. -/
theorem mem_final_generate {opcode : Byte} {a : Word}
    (h : a ∈ (generate opcode w).final.ram.map Prod.fst) :
    a ∈ (generate opcode w).initial.ram.map Prod.fst ∨
      (generate opcode w).start.mem.get a ≠ (generate opcode w).start.step.mem.get a := by
  rw [start_generate, initial_generate]
  simp only [final_generate, List.map_map, Function.comp_def, List.map_id',
    Space.mem_addressesWhere, Bool.or_eq_true, List.contains_iff_mem, bne_iff_ne] at h
  exact h

theorem mem_portWrites_generate {opcode : Byte} {p : Word}
    (h : p ∈ (generate opcode w).portWrites.map Prod.fst) :
    (generate opcode w).start.ports.get p ≠ (generate opcode w).start.step.ports.get p := by
  rw [start_generate]
  simp only [portWrites_generate, List.map_map, Function.comp_def, List.map_id',
    Space.mem_changed] at h
  exact h

/-- Generated cases need nothing but what they list.  Brought to the beginning of such
    a case, any two machines take the same time for its instruction and are left with
    the same registers and the same bytes in all cells of the final state and all ports
    written: the initial state has every cell, and the port reads have every port, that
    the instruction reads. -/
theorem step_startOn_generate (opcode : Byte) (h : supported opcode = true) (w : Draw)
    (m₁ m₂ : Machine) :
    let c := generate opcode w
    let after₁ := (c.startOn m₁).step
    let after₂ := (c.startOn m₂).step
    after₁.cycles = after₂.cycles ∧
    CaseState.ofMachine after₁ = CaseState.ofMachine after₂ ∧
    (∀ a ∈ c.final.ram.map Prod.fst, after₁.mem.get a = after₂.mem.get a) ∧
    (∀ p ∈ c.portWrites.map Prod.fst, after₁.ports.get p = after₂.ports.get p) ∧
    (∀ a ∈ c.start.readCells, a ∈ c.initial.ram.map Prod.fst) ∧
    ∀ p ∈ c.start.inputCells, p ∈ c.portReads.map Prod.fst := by
  intro c after₁ after₂
  obtain ⟨hcells, hports⟩ := readCells_generate w h
  obtain ⟨hcycles, hregisters, hmem, hsent⟩ := step_startOn c hcells hports m₁ m₂
  exact ⟨hcycles, hregisters, fun a ha => hmem a (mem_final_generate w ha),
    fun p hp => hsent p (mem_portWrites_generate w hp), hcells, hports⟩

/-- EX (SP),HL with the stack round the top of memory, on cleared memory and ports and on
    filled ones. -/
theorem step_startOn_generate_wrapped :
    let c := generate 0xE3 ⟨{ sp := 0xFFFF, pc := 0x8000 }, 1, 2, 3, 4, 5, 6, 7, 8, 9, 10, 11, 12⟩
    let filled := { Machine.initial {} with mem := .fill 0xAA, ports := .fill 0x55 }
    supported 0xE3 = true ∧
    (c.startOn (.initial {})).step.cycles = (c.startOn filled).step.cycles ∧
    CaseState.ofMachine (c.startOn (.initial {})).step =
      CaseState.ofMachine (c.startOn filled).step := by
  intro c filled
  have hsupported : supported 0xE3 = true := by decide
  obtain ⟨hcycles, hregisters, -⟩ :=
    step_startOn_generate 0xE3 hsupported ⟨{ sp := 0xFFFF, pc := 0x8000 }, 1, 2, 3, 4, 5, 6, 7, 8,
      9, 10, 11, 12⟩ (.initial {}) filled
  exact ⟨hsupported, hcycles, hregisters⟩

end Case

end Z80
