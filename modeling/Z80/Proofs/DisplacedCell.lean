/-
  Z80.Proofs.DisplacedCell

  The cell at a displacement from an index register in the place of the cell at HL.

  Behind DD or FD an instruction on the cell at HL works on a cell at a displacement
  from an index register.  It does what the instruction does without the prefix when
  HL points at that cell: `effect_displaced` says so of the instructions, and
  `step_displaced` of the bytes in memory.  The loads between the cell and H or L
  keep plain H and L, and on the CB page a register may receive a copy.
-/

import Z80.Proofs.Timing

namespace Z80

/-! ## HL on the cell -/

namespace Machine

/-- The machine with other contents of HL and R. -/
def withHlR (m : Machine) (hl : Word) (r : Byte) : Machine :=
  { m.setPair (.bank .hl) hl with regs.r := r }

/-- The address at a displacement from an index register. -/
def cell (m : Machine) (x : Index) (d : Int8) : Word :=
  (m.regs.index x).displace d

section

variable (m : Machine) (w : Word) (r : Byte)

@[simp] theorem hl_withHlR : (m.withHlR w r).hl = w := by
  simp [withHlR, hl, setPair, Bank.pair_setPair]

@[simp] theorem flags_withHlR : (m.withHlR w r).flags = m.flags := rfl

@[simp] theorem setFlags_withHlR (f : Flags) :
    (m.withHlR w r).setFlags f = (m.setFlags f).withHlR w r := rfl

@[simp] theorem alu_withHlR (op : AluOp) (v : Byte) :
    (m.withHlR w r).alu op v = (m.alu op v).withHlR w r := rfl

@[simp] theorem store_withHlR (a : Word) (v : Byte) :
    (m.withHlR w r).store a v = (m.store a v).withHlR w r := rfl

theorem setReg_withHlR {q : Reg8} (hh : q ≠ .h) (hl : q ≠ .l) (v : Byte) :
    (m.withHlR w r).setReg q v = (m.setReg q v).withHlR w r := by
  cases q <;> first | contradiction | rfl

theorem hl_setReg {q : Reg8} (hh : q ≠ .h) (hl : q ≠ .l) (v : Byte) :
    (m.setReg q v).hl = m.hl := by
  cases q <;> first | contradiction | rfl

/-- What HL and R held before is gone. -/
@[simp] theorem withHlR_withHlR (w' : Word) (r' : Byte) :
    (m.withHlR w r).withHlR w' r' = m.withHlR w' r' := rfl

/-- HL and R can be put back. -/
@[simp] theorem withHlR_self : m.withHlR m.hl m.regs.r = m := by
  simp [withHlR, hl, setPair, Bank.setPair, Bank.pair, Bank.set, Bank.get, Reg16.high, Reg16.low]

end

end Machine

/-! ## Operands -/

/-- The operand under a prefix that an operand without a prefix turns into.  The
    halves of HL have none beside a cell at a displacement. -/
def Operand.displaced? (x : Index) (d : Int8) : Operand → Option Operand
  | hl => some (indexed x d)
  | reg .h | reg .l => none
  | reg r => some (reg r)
  | _ => none

namespace Machine

variable {m : Machine} {x : Index} {d : Int8} {o o' : Operand}

theorem read_displaced (h : o.displaced? x d = some o') (r : Byte) :
    m.read o' = (m.withHlR (m.cell x d) r).read o := by
  cases o with
  | reg q => cases q <;> cases h <;> rfl
  | hl =>
    cases h
    show m.mem.get (m.cell x d) = m.mem.get (m.withHlR (m.cell x d) r).hl
    rw [hl_withHlR]
  | high y => cases h
  | low y => cases h
  | indexed y e => cases h

theorem write_displaced (h : o.displaced? x d = some o') (r v : Byte) :
    m.write o' v = ((m.withHlR (m.cell x d) r).write o v).withHlR m.hl m.regs.r := by
  cases o with
  | reg q =>
    have hq : q ≠ .h ∧ q ≠ .l ∧ Operand.reg q = o' := by
      cases q <;> cases h <;> exact ⟨Reg8.noConfusion, Reg8.noConfusion, rfl⟩
    obtain ⟨hh, hl, rfl⟩ := hq
    show m.setReg q v = ((m.withHlR (m.cell x d) r).setReg q v).withHlR m.hl m.regs.r
    rw [setReg_withHlR m _ r hh hl, withHlR_withHlR, ← hl_setReg m hh hl v]
    exact (withHlR_self (m.setReg q v)).symm
  | hl =>
    cases h
    show m.store (m.cell x d) v =
      ((m.withHlR (m.cell x d) r).store (m.withHlR (m.cell x d) r).hl v).withHlR m.hl m.regs.r
    rw [hl_withHlR, store_withHlR, withHlR_withHlR]
    exact (withHlR_self (m.store (m.cell x d) v)).symm
  | high y => cases h
  | low y => cases h
  | indexed y e => cases h

/-- A cell at a displacement has the address that HL holds instead. -/
theorem address?_displaced (h : o.displaced? x d = some o') (r : Byte) :
    m.address? o' = (m.withHlR (m.cell x d) r).address? o := by
  cases o with
  | reg q => cases q <;> cases h <;> rfl
  | hl =>
    cases h
    show some (m.cell x d) = some (m.withHlR (m.cell x d) r).hl
    rw [hl_withHlR]
  | high y => cases h
  | low y => cases h
  | indexed y e => cases h

theorem replace_displaced (h : o.displaced? x d = some o') (r v : Byte) (f : Flags) :
    m.replace o' v f = ((m.withHlR (m.cell x d) r).replace o v f).withHlR m.hl m.regs.r := by
  rw [replace, write_displaced h r]
  rfl

end Machine

/-! ## Instructions -/

namespace Instr

/-- The instruction under a prefix that an instruction without a prefix turns into,
    for those with the cell at HL as an operand. -/
def displaced? (x : Index) (d : Int8) : Instr → Option Instr
  | ld dst src => (dst.displaced? x d).bind fun dst => (src.displaced? x d).map (ld dst)
  | ldByte .hl n => some (ldByte (.indexed x d) n)
  | alu op src => (src.displaced? x d).map (alu op)
  | inc dst => (dst.displaced? x d).map inc
  | dec dst => (dst.displaced? x d).map dec
  | rot op target none => (target.displaced? x d).map (rot op · none)
  | bit n src => (src.displaced? x d).map (bit n)
  | res n target none => (target.displaced? x d).map (res n · none)
  | set n target none => (target.displaced? x d).map (set n · none)
  | _ => none

theorem displaced?_ld {x : Index} {d : Int8} {dst src : Operand} {j : Instr}
    (h : (ld dst src).displaced? x d = some j) :
    ∃ dst' src', dst.displaced? x d = some dst' ∧ src.displaced? x d = some src' ∧
      ld dst' src' = j := by
  obtain ⟨dst', hdst, hmap⟩ := Option.bind_eq_some_iff.mp h
  obtain ⟨src', hsrc, hj⟩ := Option.map_eq_some_iff.mp hmap
  exact ⟨dst', src', hdst, hsrc, hj⟩

end Instr

namespace Machine

variable {m : Machine} {x : Index} {d : Int8}

/-- An instruction on the cell at a displacement does what the instruction on the
    cell at HL does while HL points there; R plays no part. -/
theorem effect_displaced {i j : Instr} (h : i.displaced? x d = some j) (r : Byte)
    (taken : Bool) :
    j.effect taken m = (i.effect taken (m.withHlR (m.cell x d) r)).withHlR m.hl m.regs.r := by
  cases i
  case ld dst src =>
    obtain ⟨dst', src', hdst, hsrc, rfl⟩ := Instr.displaced?_ld h
    show m.write dst' (m.read src') = _
    rw [read_displaced hsrc r, write_displaced hdst r]
    rfl
  case ldByte dst n =>
    cases dst <;> cases h
    exact write_displaced (o := .hl) rfl r n
  case alu op src =>
    obtain ⟨src', hsrc, rfl⟩ := Option.map_eq_some_iff.mp h
    show m.alu op (m.read src') = ((m.withHlR (m.cell x d) r).alu op _).withHlR m.hl m.regs.r
    rw [read_displaced hsrc r, alu_withHlR, withHlR_withHlR]
    exact (withHlR_self (m.alu op _)).symm
  case inc dst =>
    obtain ⟨dst', hdst, rfl⟩ := Option.map_eq_some_iff.mp h
    simp only [Instr.effect, read_displaced hdst r, replace_displaced hdst r, flags_withHlR]
  case dec dst =>
    obtain ⟨dst', hdst, rfl⟩ := Option.map_eq_some_iff.mp h
    simp only [Instr.effect, read_displaced hdst r, replace_displaced hdst r, flags_withHlR]
  case rot op target copy =>
    cases copy with
    | some q => cases h
    | none =>
      obtain ⟨target', htarget, rfl⟩ := Option.map_eq_some_iff.mp h
      show m.replace target' _ _ = _
      rw [read_displaced htarget r, replace_displaced htarget r]
      rfl
  case bit n src =>
    obtain ⟨src', hsrc, rfl⟩ := Option.map_eq_some_iff.mp h
    simp only [Instr.effect, read_displaced hsrc r, address?_displaced hsrc r, flags_withHlR,
      setFlags_withHlR, withHlR_withHlR]
    exact (withHlR_self (m.setFlags _)).symm
  case res n target copy =>
    cases copy with
    | some q => cases h
    | none =>
      obtain ⟨target', htarget, rfl⟩ := Option.map_eq_some_iff.mp h
      show m.write target' _ = _
      rw [read_displaced htarget r, write_displaced htarget r]
      rfl
  case set n target copy =>
    cases copy with
    | some q => cases h
    | none =>
      obtain ⟨target', htarget, rfl⟩ := Option.map_eq_some_iff.mp h
      show m.write target' _ = _
      rw [read_displaced htarget r, write_displaced htarget r]
      rfl
  -- no other instruction has the cell at HL as an operand
  all_goals cases h

@[simp] theorem r_write (m : Machine) (o : Operand) (v : Byte) :
    (m.write o v).regs.r = m.regs.r := by
  cases o with
  | high y => cases y <;> rfl
  | low y => cases y <;> rfl
  | _ => rfl

/-- An instruction on a cell leaves R alone. -/
theorem r_effect_displaced {i j : Instr} (h : i.displaced? x d = some j) (taken : Bool) :
    (i.effect taken m).regs.r = m.regs.r := by
  cases i
  case rot op target copy | res n target copy | set n target copy =>
    cases copy with
    | some q => cases h
    | none => exact r_write m target _
  case ld dst src => exact r_write m dst _
  case ldByte dst n => exact r_write m dst n
  case inc dst | dec dst => exact r_write m dst _
  case alu op src => rfl
  case bit n src => rfl
  all_goals cases h

end Machine

/-! ## Copies to a register -/

namespace Instr

/-- The instruction with another register that also receives its result, if it is
    one that stores its result. -/
def withCopy (copy : Option Reg8) : Instr → Instr
  | rot op target _ => rot op target copy
  | res n target _ => res n target copy
  | set n target _ => set n target copy
  | i => i

/-- The operand in which an instruction of the CB page stores its result. -/
def target? : Instr → Option Operand
  | rot _ target _ | res _ target _ | set _ target _ => some target
  | _ => none

theorem withBytes_withCopy (i : Instr) (copy : Option Reg8) (n₁ n₂ : Byte) :
    (i.withCopy copy).withBytes n₁ n₂ = (i.withBytes n₁ n₂).withCopy copy := by
  cases i
  case unimplemented o => cases o <;> rfl
  all_goals rfl

theorem target?_withBytes (i : Instr) (n₁ n₂ : Byte) :
    (i.withBytes n₁ n₂).target? = i.target?.map (Operand.withDisp n₁.toInt8) := by
  cases i
  case unimplemented o => cases o <;> rfl
  all_goals rfl

theorem target?_withCopy (i : Instr) (copy : Option Reg8) :
    (i.withCopy copy).target? = i.target? := by
  cases i <;> rfl

theorem taken_withCopy (i : Instr) (copy : Option Reg8) (m : Machine) :
    (i.withCopy copy).taken m = i.taken m := by
  cases i <;> rfl

/-- An instruction on a cell has no copy yet. -/
theorem withCopy_none {x : Index} {d : Int8} {i j : Instr} (h : i.displaced? x d = some j) :
    j.withCopy none = j := by
  cases i
  case ld dst src =>
    obtain ⟨dst', src', -, -, rfl⟩ := displaced?_ld h
    rfl
  case ldByte dst n => cases dst <;> cases h; rfl
  case alu _ o | inc o | dec o | bit _ o =>
    obtain ⟨o', -, rfl⟩ := Option.map_eq_some_iff.mp h
    rfl
  case rot _ o copy | res _ o copy | set _ o copy =>
    cases copy with
    | some q => cases h
    | none =>
      obtain ⟨o', -, rfl⟩ := Option.map_eq_some_iff.mp h
      rfl
  all_goals cases h

end Instr

/-- The register receives what the instruction stores in its cell.  F is none of
    the registers that an opcode can name. -/
theorem Machine.effect_withCopy {m : Machine} {i : Instr} {o : Operand} {a : Word}
    {copy : Option Reg8} (haddress : m.address? o = some a)
    (hcopy : copy.isSome = true → copy ≠ some .f ∧ i.target? = some o) (taken : Bool) :
    let plain := (i.withCopy none).effect taken m
    (i.withCopy copy).effect taken m = plain.copyTo copy (plain.mem.get a) := by
  have hcell (v : Byte) : (m.write o v).mem.get a = v := by
    rw [mem_write, haddress]
    exact Space.get_set_self m.mem a v
  cases copy with
  | none => rfl
  | some r =>
    obtain ⟨hf, htarget⟩ := hcopy rfl
    have hcopied (v : Byte) : (m.write o v).setReg r v =
        (m.write o v).setReg r ((m.write o v).mem.get a) := by
      rw [hcell]
    have hflags (k : Machine) (v : Byte) (f : Flags) :
        (k.setReg r v).setFlags f = (k.setFlags f).setReg r v := by
      cases r <;> first | rfl | exact absurd rfl hf
    cases i
    case rot op target copy' =>
      cases htarget
      show ((m.write o _).setReg r _).setFlags _ = _
      rw [hcopied, hflags]
      rfl
    case res n target copy' =>
      cases htarget
      exact hcopied _
    case set n target copy' =>
      cases htarget
      exact hcopied _
    all_goals cases htarget

/-! ## Immediate bytes -/

namespace Instr

/-- The displacement comes before an immediate byte. -/
theorem withBytes_displaced {x : Index} {i j : Instr} (h : i.displaced? x 0 = some j)
    (d n n' : Byte) :
    (i.withBytes n n').displaced? x d.toInt8 = some (j.withBytes d n) := by
  have hdisp {o o' : Operand} (ho : o.displaced? x 0 = some o') :
      (o.withDisp n.toInt8).displaced? x d.toInt8 = some (o'.withDisp d.toInt8) := by
    cases o with
    | reg q => cases q <;> cases ho <;> rfl
    | hl => cases ho; rfl
    | high y => cases ho
    | low y => cases ho
    | indexed y e => cases ho
  cases i
  case ld dst src =>
    obtain ⟨dst', src', hdst, hsrc, rfl⟩ := displaced?_ld h
    simp only [withBytes, displaced?, hdisp hdst, hdisp hsrc, Option.bind_some, Option.map_some]
  case ldByte dst m => cases dst <;> cases h; rfl
  case alu _ o | inc o | dec o | bit _ o =>
    obtain ⟨o', ho, rfl⟩ := Option.map_eq_some_iff.mp h
    simp only [withBytes, displaced?, hdisp ho, Option.map_some]
  case rot _ o copy | res _ o copy | set _ o copy =>
    cases copy with
    | some q => cases h
    | none =>
      obtain ⟨o', ho, rfl⟩ := Option.map_eq_some_iff.mp h
      simp only [withBytes, displaced?, hdisp ho, Option.map_some]
  all_goals cases h

/-- An instruction on a cell goes on at the next one. -/
theorem taken_displaced {x : Index} {d : Int8} {i j : Instr} (h : i.displaced? x d = some j)
    (m : Machine) : i.taken m = false ∧ j.taken m = false := by
  cases i
  case ld dst src =>
    obtain ⟨dst', src', -, -, rfl⟩ := displaced?_ld h
    exact ⟨rfl, rfl⟩
  case ldByte dst n => cases dst <;> cases h; exact ⟨rfl, rfl⟩
  case alu _ o | inc o | dec o | bit _ o =>
    obtain ⟨o', -, rfl⟩ := Option.map_eq_some_iff.mp h
    exact ⟨rfl, rfl⟩
  case rot _ o copy | res _ o copy | set _ o copy =>
    cases copy with
    | some q => cases h
    | none =>
      obtain ⟨o', -, rfl⟩ := Option.map_eq_some_iff.mp h
      exact ⟨rfl, rfl⟩
  all_goals cases h

end Instr

/-! ## Encodings -/

namespace Page

/-- The opcodes that load H or L from a cell or store them to one. -/
def namesHalf (op : Byte) : Bool :=
  [0x66, 0x6E, 0x74, 0x75].contains op

/-- An opcode of the CB page with its register field set to the cell at HL. -/
def onCell (op : Byte) : Byte :=
  op &&& 0xF8 ||| 6

/-- The register that receives a copy of the result behind DD CB or FD CB.  A test
    has no result. -/
def copied (op : Byte) : Option Reg8 :=
  if op &&& 0xC0 = 0x40 then none else Reg8.ofField? op

/-- Behind a prefix the decoder finds the same instruction on the other cell, two
    bytes longer. -/
theorem template_displaced (x : Index) {op : Byte} (hcell : hasCell op = true)
    (hhalf : namesHalf op = false) :
    (template (main none) op).instr.displaced? x 0 = some (template (main (some x)) op).instr ∧
      (template (main (some x)) op).size = 2 + (template (main none) op).size ∧
      (template (main (some x)) op).instr.tail false =
        (template (main none) op).instr.tail false + if op = 0x36 then 5 else 8 := by
  revert op
  rw [Byte.forall_iff]
  cases x <;> decide +kernel

/-- The same on the CB page, where a register receives a copy and there is no SLL. -/
theorem template_displacedCb (x : Index) {op : Byte} (h : op &&& 0xF8 ≠ 0x30) :
    ((template cb (onCell op)).instr.displaced? x 0).map (·.withCopy (copied op)) =
        some (template (indexCb x) op).instr ∧
      (template (indexCb x) op).instr.tail false =
        (template cb (onCell op)).instr.tail false + 8 ∧
      ((copied op).isSome = true → copied op ≠ some .f ∧
        (template (indexCb x) op).instr.target? = some (.indexed x 0)) := by
  revert op
  rw [Byte.forall_iff]
  cases x <;> decide +kernel

theorem template_indexCb_bit (x : Index) {op : Byte} (h : op &&& 0xC0 = 0x40) :
    (template (indexCb x) op).instr = .bit (Decode.bitNumber op) (.indexed x 0) := by
  revert op
  rw [Byte.forall_iff]
  cases x <;> decide +kernel

end Page

/-! ## One step -/

namespace Machine

/-- The machine behind an instruction of `n` bytes with a prefix. -/
def behindIndexed (m : Machine) (n : Word) : Machine :=
  { m with regs := { m.regs with
      pc := m.regs.pc + n
      r := Registers.refreshed (Registers.refreshed m.regs.r) } }

/-- The machine that has fetched a prefix and is to execute an opcode in the place
    of the displacement: the program counter is on the displacement and HL holds the
    address of the cell. -/
def atCell (m : Machine) (x : Index) (d : Int8) : Machine :=
  { m.withHlR (m.cell x d) (Registers.refreshed m.regs.r) with regs.pc := m.regs.pc + 2 }

theorem execute_decode (m : Machine) (p : Page) (op n₁ n₂ : Byte) :
    let t := p.template op
    let i := t.instr.withBytes n₁ n₂
    m.execute (p.decode op n₁ n₂) = { i.effect (i.taken (m.fetch t)) (m.fetch t) with
      cycles := fetchTime t + i.tail (i.taken (m.fetch t)) } := by
  rw [Page.decode_eq_withBytes]
  rfl

/-- Behind a prefix the decoder reads the three bytes that follow. -/
theorem current_behindIndex {m : Machine} {x : Index} (hcode : m.mem.get m.pc = x.code) :
    m.current =
      let e := Encoding.behindIndex x (m.mem.get (m.pc + 1)) (m.mem.get (m.pc + 2))
        (m.mem.get (m.pc + 3))
      e.page.decode e.op e.n₁ e.n₂ := by
  rw [current, decode_eq_decode, hcode]
  cases x <;> rfl

/-- The opcode in the place of the displacement is fetched to the same address. -/
theorem fetch_atCell (m : Machine) (x : Index) (d : Int8) {t t' : Decoded}
    (hsize : t'.size = 2 + t.size) :
    (m.atCell x d).fetch t =
      (m.fetch t').withHlR ((m.fetch t').cell x d) ((m.atCell x d).fetch t).regs.r := by
  have hpc : m.regs.pc + 2 + t.size.toUInt16 = m.regs.pc + t'.size.toUInt16 := by
    rw [hsize, UInt16.add_assoc]
    congr 1
    exact (UInt16.ofNat_add 2 t.size).symm
  have hcell : (m.fetch t').cell x d = m.cell x d := by
    cases x <;> rfl
  rw [hcell]
  simp only [fetch, atCell, withHlR, setPair, hpc]

/-- An instruction on the cell at a displacement, and the instruction on the cell at
    HL in the place of the displacement. -/
theorem execute_displaced (m : Machine) (x : Index) {t' : Decoded} {p : Page} {op : Byte}
    {j : Instr} (hinstr : (p.template op).instr.displaced? x 0 = some j)
    (hsize : t'.size = 2 + (p.template op).size) (d n n' : Byte) :
    let plain := (m.atCell x d.toInt8).execute (p.decode op n n')
    (∀ c, { (j.withBytes d n).effect false (m.fetch t') with cycles := c } =
        { plain.withHlR m.hl (m.fetch t').regs.r with cycles := c }) ∧
      plain.cycles = fetchTime (p.template op) + (p.template op).instr.tail false ∧
      plain.regs.r = ((m.atCell x d.toInt8).fetch (p.template op)).regs.r := by
  intro plain
  have hbytes := Instr.withBytes_displaced hinstr d n n'
  have htaken := (Instr.taken_displaced hbytes ((m.atCell x d.toInt8).fetch (p.template op))).1
  have heffect := effect_displaced (m := m.fetch t') hbytes
    ((m.atCell x d.toInt8).fetch (p.template op)).regs.r false
  rw [← fetch_atCell m x d.toInt8 hsize] at heffect
  have hplain : plain = _ := execute_decode (m.atCell x d.toInt8) p op n n'
  rw [htaken, Instr.tail_withBytes] at hplain
  refine ⟨fun c => ?_, ?_, ?_⟩
  · rw [heffect, hplain]
    rfl
  · rw [hplain]
  · rw [hplain]
    exact r_effect_displaced hbytes false

/-- The opcodes of the main page with the cell at HL, in memory behind a prefix. -/
theorem execute_hasCell (m : Machine) (x : Index) {op : Byte} (d n n' : Byte)
    (hcell : Page.hasCell op = true) (hhalf : Page.namesHalf op = false) :
    let plain := (m.atCell x d.toInt8).execute ((Page.main none).decode op n n')
    m.execute ((Page.main (some x)).decode op d n) =
      { plain.setPair (.bank .hl) m.hl with
        cycles := plain.cycles + if op = 0x36 then 9 else 12 } := by
  obtain ⟨hinstr, hsize, htail⟩ := Page.template_displaced x hcell hhalf
  obtain ⟨heffect, hcycles, hr⟩ := execute_displaced m x hinstr hsize d n n'
  intro plain
  have hbytes := Instr.withBytes_displaced hinstr d n n'
  have hexecute := execute_decode m (.main (some x)) op d n
  dsimp only at hexecute
  rw [(Instr.taken_displaced hbytes _).2, Instr.tail_withBytes, heffect, htail] at hexecute
  rw [hexecute]
  -- R is where the main page leaves it
  have hsame : plain.regs.r = (m.fetch ((Page.main (some x)).template op)).regs.r := hr
  have htime : plain.cycles + (if op = 0x36 then 9 else 12) =
      fetchTime ((Page.main (some x)).template op) +
        (((Page.main none).template op).instr.tail false + if op = 0x36 then 5 else 8) := by
    rw [show plain.cycles = _ from hcycles]
    show 4 + _ + _ = 8 + _
    split <;> omega
  rw [htime, ← hsame]
  rfl

/-- The opcodes of the CB page, in memory behind a prefix and a displacement. -/
theorem execute_indexCb (m : Machine) (x : Index) {op : Byte} (d : Byte)
    (hop : op &&& 0xF8 ≠ 0x30) :
    let plain := (m.atCell x d.toInt8).execute (Page.cb.decode (Page.onCell op) 0 0)
    let ran := m.execute ((Page.indexCb x).decode op d 0)
    ran = { (plain.withHlR m.hl (m.behindIndexed 4).regs.r).copyTo (Page.copied op)
        (plain.mem.get (m.cell x d.toInt8)) with cycles := plain.cycles + 8 } ∧
      ran.mem = plain.mem ∧ ran.flags = plain.flags ∧
      plain.regs.r = Registers.refreshed ran.regs.r := by
  intro plain ran
  obtain ⟨hmap, htail, hcopied⟩ := Page.template_displacedCb x hop
  obtain ⟨j, hinstr, hcopy⟩ := Option.map_eq_some_iff.mp hmap
  have hsize : ((Page.indexCb x).template op).size =
      2 + (Page.cb.template (Page.onCell op)).size := rfl
  obtain ⟨heffect, hcycles, hr⟩ := execute_displaced m x hinstr hsize d 0 0
  have hbytes := Instr.withBytes_displaced hinstr d 0 0
  have hinstr' : ((Page.indexCb x).template op).instr.withBytes d 0 =
      (j.withBytes d 0).withCopy (Page.copied op) := by
    rw [← hcopy, Instr.withBytes_withCopy]
  have hran : ran = _ := execute_decode m (.indexCb x) op d 0
  rw [Instr.tail_withBytes, hinstr', Instr.taken_withCopy, (Instr.taken_displaced hbytes _).2,
    htail] at hran
  -- the copy is made of what the plain instruction stores
  have haddress : (m.fetch ((Page.indexCb x).template op)).address? (.indexed x d.toInt8) =
      some (m.cell x d.toInt8) := by
    cases x <;> rfl
  have hcopied' : (Page.copied op).isSome = true → Page.copied op ≠ some .f ∧
      (j.withBytes d 0).target? = some (.indexed x d.toInt8) := by
    intro hsome
    obtain ⟨hf, htarget⟩ := hcopied hsome
    rw [← hcopy, Instr.target?_withCopy] at htarget
    refine ⟨hf, ?_⟩
    rw [Instr.target?_withBytes, htarget]
    rfl
  have hcycles_copyTo (k : Machine) (v : Byte) (c : Nat) :
      { k.copyTo (Page.copied op) v with cycles := c } =
        { k with cycles := c }.copyTo (Page.copied op) v := by
    cases Page.copied op <;> rfl
  have hr_copyTo (k : Machine) (v : Byte) : (k.copyTo (Page.copied op) v).regs.r = k.regs.r := by
    cases Page.copied op <;> rfl
  have hmem : ((j.withBytes d 0).effect false (m.fetch ((Page.indexCb x).template op))).mem =
      plain.mem := by
    have h := congrArg Machine.mem (heffect 0)
    exact h
  rw [effect_withCopy haddress hcopied', Instr.withCopy_none hbytes, hmem, hcycles_copyTo,
    heffect] at hran
  have hflags (k : Machine) (v : Byte) : (k.copyTo (Page.copied op) v).flags = k.flags := by
    cases hr : Page.copied op with
    | none => rfl
    | some r =>
      have hf : some r ≠ some Reg8.f := hr ▸ (hcopied (by rw [hr]; rfl)).1
      cases r <;> first | rfl | exact absurd rfl hf
  refine ⟨?_, ?_, ?_, ?_⟩
  · rw [hran, hcycles_copyTo, show plain.cycles = _ from hcycles]
    rfl
  · rw [hran, mem_copyTo]
    rfl
  · rw [hran, hflags]
    rfl
  · rw [hran, hr_copyTo, show plain.regs.r = _ from hr]
    rfl

/-- A test of a cell at a displacement changes F alone. -/
theorem execute_indexCb_bit (m : Machine) (x : Index) {op : Byte} (d : Byte)
    (hbit : op &&& 0xC0 = 0x40) :
    let ran := m.execute ((Page.indexCb x).decode op d 0)
    ran = { (m.behindIndexed 4).setFlags ran.flags with cycles := 20 } := by
  have hinstr : ((Page.indexCb x).template op).instr =
      .bit (Decode.bitNumber op) (.indexed x 0) := Page.template_indexCb_bit x hbit
  intro ran
  have hran : ran = _ := execute_decode m (.indexCb x) op d 0
  rw [hinstr] at hran
  rw [hran]
  rfl

/-- A load from a cell at a displacement to a register. -/
theorem execute_load (m : Machine) (x : Index) {op : Byte} {q : Reg8} (d n : Byte)
    (h : (Page.main (some x)).template op = ⟨.ld (.reg q) (.indexed x 0), 3, true⟩) :
    m.execute ((Page.main (some x)).decode op d n) =
      { (m.behindIndexed 3).setReg q (m.mem.get (m.cell x d.toInt8)) with cycles := 19 } := by
  rw [execute_decode, h]
  cases x <;> rfl

/-- A store from a register to a cell at a displacement. -/
theorem execute_store (m : Machine) (x : Index) {op : Byte} {q : Reg8} (d n : Byte)
    (h : (Page.main (some x)).template op = ⟨.ld (.indexed x 0) (.reg q), 3, true⟩) :
    m.execute ((Page.main (some x)).decode op d n) =
      { (m.behindIndexed 3).store (m.cell x d.toInt8) (m.reg q) with cycles := 19 } := by
  rw [execute_decode, h]
  cases x <;> rfl

/-- Behind DD or FD an opcode with the cell at HL does to the cell at the displacement
    what it does without the prefix while HL points there, and HL is as before; it
    takes 12 T-states more, or 9 for an immediate byte.  The loads between the cell
    and H or L keep plain H and L.  On the CB page, whatever the register field says,
    the cell is the operand; 8 T-states more are taken and one opcode fetch is not
    counted, and the register in the field receives what is stored, while a test
    changes nothing but F. -/
theorem step_displaced (m : Machine) (x : Index) (hcode : m.mem.get m.pc = x.code) :
    let op := m.mem.get (m.pc + 1)
    let d := (m.mem.get (m.pc + 2)).toInt8
    let sub := m.mem.get (m.pc + 3)
    let cell := m.cell x d
    let ran := m.execute m.current
    (m.halted = false → m.step = ran) ∧
    (Page.hasCell op = true → Page.namesHalf op = false →
      let plain := (m.atCell x d).execute
        ((Page.main none).decode op (m.mem.get (m.pc + 3)) (m.mem.get (m.pc + 4)))
      ran = { plain.setPair (.bank .hl) m.hl with
        cycles := plain.cycles + if op = 0x36 then 9 else 12 }) ∧
    (op = 0x66 → ran = { (m.behindIndexed 3).setReg .h (m.mem.get cell) with cycles := 19 }) ∧
    (op = 0x6E → ran = { (m.behindIndexed 3).setReg .l (m.mem.get cell) with cycles := 19 }) ∧
    (op = 0x74 → ran = { (m.behindIndexed 3).store cell (m.reg .h) with cycles := 19 }) ∧
    (op = 0x75 → ran = { (m.behindIndexed 3).store cell (m.reg .l) with cycles := 19 }) ∧
    (op = 0xCB → sub &&& 0xF8 ≠ 0x30 →
      let plain := (m.atCell x d).execute (Page.cb.decode (Page.onCell sub) 0 0)
      ran.mem = plain.mem ∧ ran.flags = plain.flags ∧
      ran = { (plain.withHlR m.hl (m.behindIndexed 4).regs.r).copyTo (Page.copied sub)
          (plain.mem.get cell) with cycles := plain.cycles + 8 } ∧
      plain.regs.r = Registers.refreshed ran.regs.r ∧
      (sub &&& 0xC0 = 0x40 →
        ran = { (m.behindIndexed 4).setFlags plain.flags with cycles := 20 })) := by
  intro op d sub cell ran
  have hcurrent := current_behindIndex hcode
  have hat {b : Byte} (hop : op = b) (hidle : ¬(b = 0xDD ∨ b = 0xFD ∨ b = 0xED))
      (hcb : b ≠ 0xCB) :
      ran = m.execute ((Page.main (some x)).decode b (m.mem.get (m.pc + 2)) sub) := by
    rw [← hop] at hidle hcb
    rw [show ran = m.execute m.current from rfl, hcurrent, Encoding.behindIndex, if_neg hidle,
      if_neg hcb, ← hop]
  refine ⟨step_of_running, ?_, ?_, ?_, ?_, ?_, ?_⟩
  · intro hcell hhalf
    obtain ⟨hcb, hidle⟩ := Page.ne_prefix (by decide) hcell
    exact (hat rfl hidle hcb).trans (execute_hasCell m x _ sub _ hcell hhalf)
  · exact fun hop => (hat hop (by decide) (by decide)).trans
      (execute_load m x _ _ (by cases x <;> decide))
  · exact fun hop => (hat hop (by decide) (by decide)).trans
      (execute_load m x _ _ (by cases x <;> decide))
  · exact fun hop => (hat hop (by decide) (by decide)).trans
      (execute_store m x _ _ (by cases x <;> decide))
  · exact fun hop => (hat hop (by decide) (by decide)).trans
      (execute_store m x _ _ (by cases x <;> decide))
  · intro hop hsll
    have hidle : ¬(op = 0xDD ∨ op = 0xFD ∨ op = 0xED) := by
      rw [hop]
      decide
    have hcb : m.current = (Page.indexCb x).decode sub (m.mem.get (m.pc + 2)) 0 := by
      rw [hcurrent, Encoding.behindIndex, if_neg hidle, if_pos hop]
    obtain ⟨hran, hmem, hflags, hr⟩ := execute_indexCb m x (m.mem.get (m.pc + 2)) hsll
    rw [← hcb] at hran hmem hflags hr
    refine ⟨hmem, hflags, hran, hr, fun hbit => ?_⟩
    have h := execute_indexCb_bit m x (m.mem.get (m.pc + 2)) hbit
    rw [← hcb] at h
    rw [← hflags]
    exact h

/-- INC (IX+2) and RES 0,(IX+2),B on the second of their own bytes. -/
theorem step_displaced_atCode :
    ((atCode 0 [0xDD, 0x34, 0x02]).mem.get (atCode 0 [0xDD, 0x34, 0x02]).pc = Index.ix.code ∧
      (atCode 0 [0xDD, 0x34, 0x02]).step.mem.get 1 = 0x35 ∧
      (atCode 0 [0xDD, 0x34, 0x02]).step.cycles = 23) ∧
    (atCode 0 [0xDD, 0xCB, 0x02, 0x80]).mem.get (atCode 0 [0xDD, 0xCB, 0x02, 0x80]).pc =
        Index.ix.code ∧
      (atCode 0 [0xDD, 0xCB, 0x02, 0x80]).step.mem.get 1 = 0xCA ∧
      (atCode 0 [0xDD, 0xCB, 0x02, 0x80]).step.reg .b = 0xCA ∧
      (atCode 0 [0xDD, 0xCB, 0x02, 0x80]).step.cycles = 23 := by
  constructor
  · have hcode : (atCode 0 [0xDD, 0x34, 0x02]).mem.get (atCode 0 [0xDD, 0x34, 0x02]).pc =
        Index.ix.code := by
      simp [atCode, pc, Space.load, Space.get_set, Index.code]
    have hop : (atCode 0 [0xDD, 0x34, 0x02]).mem.get
        ((atCode 0 [0xDD, 0x34, 0x02]).pc + 1) = 0x34 := by
      simp [atCode, pc, Space.load, Space.get_set]
    have hd : (atCode 0 [0xDD, 0x34, 0x02]).mem.get
        ((atCode 0 [0xDD, 0x34, 0x02]).pc + 2) = 0x02 := by
      simp [atCode, pc, Space.load]
    obtain ⟨hstep, hcell, -⟩ := step_displaced (atCode 0 [0xDD, 0x34, 0x02]) .ix hcode
    rw [hop, hd] at hcell
    have hran := hcell (by decide) (by decide)
    refine ⟨hcode, ?_, ?_⟩
    · rw [hstep rfl, hran]
      -- without the prefix it is INC (HL) with HL on the same cell
      refine (Space.get_set_self _ _ _).trans ?_
      show (atCode 0 [0xDD, 0x34, 0x02]).mem.get 1 + 1 = 0x35
      rw [show (atCode 0 [0xDD, 0x34, 0x02]).mem.get 1 = 0x34 from hop]
      rfl
    · rw [hstep rfl, hran]
      rfl
  · have hcode : (atCode 0 [0xDD, 0xCB, 0x02, 0x80]).mem.get
        (atCode 0 [0xDD, 0xCB, 0x02, 0x80]).pc = Index.ix.code := by
      simp [atCode, pc, Space.load, Space.get_set, Index.code]
    have hop : (atCode 0 [0xDD, 0xCB, 0x02, 0x80]).mem.get
        ((atCode 0 [0xDD, 0xCB, 0x02, 0x80]).pc + 1) = 0xCB := by
      simp [atCode, pc, Space.load, Space.get_set]
    have hd : (atCode 0 [0xDD, 0xCB, 0x02, 0x80]).mem.get
        ((atCode 0 [0xDD, 0xCB, 0x02, 0x80]).pc + 2) = 0x02 := by
      simp [atCode, pc, Space.load, Space.get_set]
    have hsub : (atCode 0 [0xDD, 0xCB, 0x02, 0x80]).mem.get
        ((atCode 0 [0xDD, 0xCB, 0x02, 0x80]).pc + 3) = 0x80 := by
      simp [atCode, pc, Space.load]
    obtain ⟨hstep, -, -, -, -, -, hcb⟩ :=
      step_displaced (atCode 0 [0xDD, 0xCB, 0x02, 0x80]) .ix hcode
    rw [hd, hsub] at hcb
    obtain ⟨hmem, -, hran, -⟩ := hcb hop (by decide)
    -- without the prefix it is RES 0,(HL) with HL on the same cell
    have hplain : (((atCode 0 [0xDD, 0xCB, 0x02, 0x80]).atCell .ix (UInt8.toInt8 0x02)).execute
        (Page.cb.decode (Page.onCell 0x80) 0 0)).mem.get 1 = 0xCA := by
      refine (Space.get_set_self _ _ _).trans ?_
      show (atCode 0 [0xDD, 0xCB, 0x02, 0x80]).mem.get 1 &&& ~~~1 = 0xCA
      rw [show (atCode 0 [0xDD, 0xCB, 0x02, 0x80]).mem.get 1 = 0xCB from hop]
      rfl
    refine ⟨hcode, ?_, ?_, ?_⟩
    · rw [hstep rfl, hmem]
      exact hplain
    · rw [hstep rfl, hran]
      exact hplain
    · rw [hstep rfl, hran]
      rfl

end Machine

end Z80
