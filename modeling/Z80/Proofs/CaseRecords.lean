/-
  Z80.Proofs.CaseRecords

  What a generated case records.

  The addresses at which something holds are listed in ascending order and each once
  (`pairwise_addressesWhere`), so a list of cells made from them is decided by which cells
  are in it.  Cells written to an empty space are all that is found there afterwards
  (`get_write_zero`).

  The main statement is `generate_records`: the initial state of a generated case is the
  memory before the instruction, the final state and the port accesses are what was listed
  or has changed, and nothing else.
-/

import Z80.Proofs.GeneratedCases

namespace Z80

namespace Space

/-! ## Lists of addresses -/

/-- Going down from `n`, each further address is put in front of greater ones. -/
theorem pairwise_addressesBelow (p : Word → Bool) {n : Nat} (hn : n ≤ 65536) {found : List Word}
    (hfound : found.Pairwise (· < ·)) (habove : ∀ a ∈ found, n ≤ a.toNat) :
    (addressesBelow p n found).Pairwise (· < ·) := by
  induction n generalizing found with
  | zero => exact hfound
  | succ n ih =>
    have hround : n.toUInt16.toNat = n := Nat.mod_eq_of_lt (by omega)
    rw [addressesBelow]
    split
    case isTrue =>
      apply ih (by omega)
      · -- all that has been found so far is above `n`
        refine List.pairwise_cons.mpr ⟨fun a ha => ?_, hfound⟩
        rw [UInt16.lt_iff_toNat_lt, hround]
        exact habove a ha
      · intro a ha
        obtain rfl | ha := List.mem_cons.mp ha
        · exact Nat.le_of_eq hround.symm
        · exact Nat.le_of_succ_le (habove a ha)
    case isFalse => exact ih (by omega) hfound fun a ha => Nat.le_of_succ_le (habove a ha)

/-- All addresses at which something holds are listed in ascending order. -/
theorem pairwise_addressesWhere (p : Word → Bool) : (addressesWhere p).Pairwise (· < ·) :=
  pairwise_addressesBelow p (Nat.le_refl _) .nil fun _ ha => absurd ha List.not_mem_nil

/-! ## Cells written to an empty space -/

/-- Of cells with distinct addresses each is found in the space, and nothing else is. -/
theorem get_write_zero {cells : List (Word × Byte)} (hdistinct : (cells.map Prod.fst).Nodup)
    (a : Word) :
    (∀ v, (a, v) ∈ cells → (zero.write cells).get a = v) ∧
      (a ∉ cells.map Prod.fst → (zero.write cells).get a = 0) :=
  ⟨fun _ hmem => get_write_of_mem zero hdistinct hmem,
    fun hout => (get_write_of_not_mem zero hout).trans (get_zero a)⟩

end Space

/-! ## The parts of a generated case -/

namespace Case

variable (opcode : Byte) (w : Draw)

/-- The initial state has the registers of the draw. -/
theorem initial_generate_eq : (generate opcode w).initial =
    { w.registers with ram := (w.initial opcode).ram } := by
  rw [initial_generate, Draw.initial]

/-- The candidate for the program counter is the first one, so it is kept. -/
theorem opcode_mem_initial : (w.registers.pc, opcode) ∈ (w.initial opcode).ram := by
  have hfirst : (w.candidates opcode).find? (·.1 == w.registers.pc) =
      some (w.registers.pc, opcode) := by
    simp [Draw.candidates]
  rw [ram_initial]
  exact List.mem_of_find?_eq_some ((Draw.find?_firstOfEach _ _).trans hfirst)

/-- The byte behind the opcode is the first operand of the draw. -/
theorem get_prepared_operand :
    (prepared opcode w).mem.get (w.registers.pc + 1) = w.operand₁ :=
  get_prepared w opcode (by simp [Draw.candidates])

/-- The final state lists, in ascending order, what the initial state lists or what has
    changed, with the bytes that are there afterwards. -/
theorem mem_final_generate_iff {a : Word} {v : Byte} :
    (a, v) ∈ (generate opcode w).final.ram ↔
      (a ∈ (w.initial opcode).ram.map Prod.fst ∨
        (prepared opcode w).mem.get a ≠ (prepared opcode w).step.mem.get a) ∧
      v = (prepared opcode w).step.mem.get a := by
  simp only [final_generate, List.mem_map, Prod.mk.injEq, Space.mem_addressesWhere,
    Bool.or_eq_true, List.contains_iff_mem, bne_iff_ne]
  -- nothing is needed of the step, and it must not be unfolded
  generalize (prepared opcode w).step = after
  constructor
  · rintro ⟨b, hlisted, rfl, rfl⟩
    exact ⟨hlisted, rfl⟩
  · rintro ⟨hlisted, rfl⟩
    exact ⟨a, hlisted, rfl, rfl⟩

theorem pairwise_final_generate :
    ((generate opcode w).final.ram.map Prod.fst).Pairwise (· < ·) := by
  simp only [final_generate, List.map_map, Function.comp_def, List.map_id']
  exact Space.pairwise_addressesWhere _

/-- The accesses that the generator adds for the ports that have changed. -/
def changedPorts (before after : Machine) : List PortAccess :=
  (Space.changed before.ports after.ports).map fun p => ⟨p, after.ports.get p, "w"⟩

theorem mem_changedPorts {before after : Machine} {x : PortAccess} :
    x ∈ changedPorts before after ↔
      before.ports.get x.port ≠ after.ports.get x.port ∧
        x.value = after.ports.get x.port ∧ x.direction = "w" := by
  simp only [changedPorts, List.mem_map, Space.mem_changed]
  constructor
  · rintro ⟨p, hchanged, rfl⟩
    exact ⟨hchanged, rfl, rfl⟩
  · obtain ⟨p, v, direction⟩ := x
    dsimp only
    rintro ⟨hchanged, rfl, rfl⟩
    exact ⟨p, hchanged, rfl⟩

theorem pairwise_changedPorts (before after : Machine) :
    ((changedPorts before after).map PortAccess.port).Pairwise (· < ·) := by
  simp only [changedPorts, List.map_map, Function.comp_def, List.map_id']
  exact Space.pairwise_addressesWhere _

/-- The first read is of the port with A above the byte behind the opcode, the second of the
    port at BC. -/
theorem ports_generate :
    let c := generate opcode w
    c.ports =
      [⟨Word.ofBytes c.initial.a ((prepared opcode w).mem.get (c.initial.pc + 1)), w.portA, "r"⟩,
        ⟨Word.ofBytes c.initial.b c.initial.c, w.portBc, "r"⟩] ++
      changedPorts (prepared opcode w) (prepared opcode w).step := by
  dsimp only
  rw [initial_generate_eq]
  dsimp only
  rw [get_prepared_operand]
  simp only [generate]
  rfl

theorem slice_four (s : Space) (a : Word) :
    s.slice a 4 = [a, a + 1, a + 2, a + 3].map s.get := by
  have htwo : a + 1 + 1 = a + 2 := UInt16.add_assoc a 1 1
  have hthree : a + 2 + 1 = a + 3 := UInt16.add_assoc a 2 1
  simp only [Space.slice, htwo, hthree, List.map_cons, List.map_nil]

theorem name_generate :
    let c := generate opcode w
    c.name = String.intercalate " "
      ([c.initial.pc, c.initial.pc + 1, c.initial.pc + 2, c.initial.pc + 3].map
        fun a => Hex.lower 2 ((prepared opcode w).mem.get a).toNat) := by
  have hname : (generate opcode w).name =
      bytesName ((prepared opcode w).mem.slice (generate opcode w).initial.pc 4) := by
    rw [initial_generate]
    simp only [generate]
  dsimp only
  rw [hname, slice_four, bytesName, List.map_map]
  rfl

/-- A generated case records what its instruction did, whatever was drawn.

    The initial state lists distinct addresses, among them that of the opcode, and memory
    before the instruction holds the bytes listed and zero everywhere else.  The final state
    has the registers after the instruction and lists, in ascending order, the addresses of
    the initial state and those at which memory has changed, with the bytes there afterwards.
    The port accesses are the two reads that were drawn, of the port with A above the
    operand and of the port at BC, and then in ascending order a write for each port that has
    changed.  There is a bus cycle for each T-state, and the name gives the four bytes from
    the program counter on. -/
theorem generate_records (opcode : Byte) (w : Draw) :
    let c := generate opcode w
    let before := prepared opcode w
    let after := before.step
    let seeded := c.initial.ram.map Prod.fst
    (seeded.Nodup ∧ (c.initial.pc, opcode) ∈ c.initial.ram ∧
      Space.zero.write c.initial.ram = before.mem ∧
      ∀ a, (∀ v, (a, v) ∈ c.initial.ram → before.mem.get a = v) ∧
        (a ∉ seeded → before.mem.get a = 0)) ∧
    (c.final = { CaseState.ofMachine after with ram := c.final.ram } ∧
      (c.final.ram.map Prod.fst).Pairwise (· < ·) ∧
      ∀ a v, (a, v) ∈ c.final.ram ↔
        (a ∈ seeded ∨ before.mem.get a ≠ after.mem.get a) ∧ v = after.mem.get a) ∧
    (∃ written, c.ports =
        [⟨Word.ofBytes c.initial.a (before.mem.get (c.initial.pc + 1)), w.portA, "r"⟩,
          ⟨Word.ofBytes c.initial.b c.initial.c, w.portBc, "r"⟩] ++ written ∧
      (written.map PortAccess.port).Pairwise (· < ·) ∧
      ∀ x, x ∈ written ↔ before.ports.get x.port ≠ after.ports.get x.port ∧
        x.value = after.ports.get x.port ∧ x.direction = "w") ∧
    c.cycles.length = after.cycles ∧
    c.name = String.intercalate " "
      ([c.initial.pc, c.initial.pc + 1, c.initial.pc + 2, c.initial.pc + 3].map
        fun a => Hex.lower 2 (before.mem.get a).toNat) := by
  intro c before after seeded
  have hram : c.initial.ram = (w.initial opcode).ram := by
    rw [show c.initial = w.initial opcode from initial_generate w opcode]
  have hpc : c.initial.pc = w.registers.pc := by
    rw [show c.initial = _ from initial_generate_eq opcode w]
  have hmem : Space.zero.write c.initial.ram = before.mem := by
    rw [hram]
    exact (mem_prepared w opcode).symm
  have hdistinct : seeded.Nodup := by
    show (c.initial.ram.map Prod.fst).Nodup
    rw [hram, ram_initial]
    exact Draw.nodup_firstOfEach _
  have hopcode : (c.initial.pc, opcode) ∈ c.initial.ram := by
    rw [hpc, hram]
    exact opcode_mem_initial opcode w
  have hfinal : c.final = { CaseState.ofMachine after with ram := c.final.ram } := by
    show (generate opcode w).final = _
    rw [final_generate]
  refine ⟨⟨hdistinct, hopcode, hmem, ?_⟩, ⟨hfinal, pairwise_final_generate opcode w, ?_⟩, ?_, ?_, ?_⟩
  · intro a
    have hcells := Space.get_write_zero hdistinct a
    rwa [hmem] at hcells
  · intro a v
    show _ ↔ (a ∈ c.initial.ram.map Prod.fst ∨ _) ∧ _
    rw [hram]
    exact mem_final_generate_iff opcode w
  · exact ⟨changedPorts before after, ports_generate opcode w, pairwise_changedPorts before after,
      fun x => mem_changedPorts⟩
  · show (generate opcode w).cycles.length = _
    rw [cycles_generate, List.length_replicate]
  · exact name_generate opcode w

/-- LD (HL),A where HL points at the instruction itself: the cell is a candidate twice, listed
    once with the opcode, and recorded afterwards with what was in A. -/
theorem generate_records_overwritten :
    let w : Draw :=
      ⟨{ a := 0x12, h := 0x80, pc := 0x8000, sp := 0x8002 }, 1, 2, 3, 4, 5, 6, 7, 8, 9, 10, 11, 12⟩
    let c := generate 0x77 w
    (∀ v, (0x8000, v) ∈ c.initial.ram ↔ v = 0x77) ∧
      ∀ v, (0x8000, v) ∈ c.final.ram ↔ v = 0x12 := by
  intro w c
  have hstored : (prepared 0x77 w).step.mem.get 0x8000 = 0x12 := by
    have hregs : (prepared 0x77 w).regs = w.registers.snapshot.registers := regs_prepared w 0x77
    have hsupported : supported 0x77 = true := by decide
    have hinstr := current_prepared w hsupported
    rw [Machine.step_of_running (halted_prepared w 0x77)]
    -- only the registers and the instruction matter, and the rest must not be unfolded
    generalize prepared 0x77 w = m at *
    generalize m.current = d at *
    obtain ⟨instr, size, pre⟩ := d
    obtain rfl : instr = .ld .hl (.reg .a) := hinstr
    obtain ⟨regs, mem, ports, im, halted, cycles, clock⟩ := m
    obtain rfl : regs = _ := hregs
    show (mem.set (Word.ofBytes 0x80 0) 0x12).get 0x8000 = 0x12
    rw [Space.get_set, if_pos (by decide)]
  obtain ⟨⟨-, hopcode, -, hcells⟩, ⟨-, -, hfinal⟩, -⟩ := generate_records 0x77 w
  have hpc : (generate 0x77 w).initial.pc = 0x8000 := by
    rw [initial_generate_eq]
  rw [hpc] at hopcode
  constructor
  · intro v
    constructor
    · exact fun h => ((hcells 0x8000).1 v h).symm.trans ((hcells 0x8000).1 0x77 hopcode)
    · rintro rfl
      exact hopcode
  · intro v
    rw [hfinal, hstored, and_iff_right]
    exact .inl (List.mem_map.mpr ⟨_, hopcode, rfl⟩)

end Case

end Z80
