/-
  Z80.Proofs.IndexSubstitution

  An index register in the place of HL.

  Behind DD or FD an instruction on HL, H or L works on an index register and its
  halves.  Up to an exchange of HL with the index register it is the same
  instruction: `effect_under` says so of the instructions, and `step_indexed` of
  the bytes in memory, with four T-states for the prefix.
-/

import Z80.Proofs.ControlFlow

namespace Z80

/-! ## The exchange -/

/-- The registers with HL and an index register exchanged. -/
def Registers.swapHl (k : Registers) (x : Index) : Registers :=
  { k.setIndex x (k.main.pair .hl) with main := k.main.setPair .hl (k.index x) }

/-- The machine with HL and an index register exchanged. -/
def Machine.swapHl (m : Machine) (x : Index) : Machine :=
  { m with regs := m.regs.swapHl x }

/-- The pair that holds after the exchange what a pair held before. -/
def Pair.swap (x : Index) : Pair → Pair
  | bank .hl => index x
  | index y => if y = x then bank .hl else index y
  | rr => rr

/-- The operand that holds after the exchange what an operand held before.  The
    cells at HL and at a displacement have none. -/
def Operand.under? (x : Index) : Operand → Option Operand
  | reg .h => some (high x)
  | reg .l => some (low x)
  | reg r => some (reg r)
  | high y => some (if y = x then reg .h else high y)
  | low y => some (if y = x then reg .l else low y)
  | hl => none
  | indexed _ _ => none

theorem Pair.swap_index (x : Index) : (index x).swap x = bank .hl :=
  if_pos rfl

theorem Operand.under?_high (x : Index) : (high x).under? x = some (reg .h) :=
  congrArg some (if_pos rfl)

theorem Operand.under?_low (x : Index) : (low x).under? x = some (reg .l) :=
  congrArg some (if_pos rfl)

/-- The instruction that does after the exchange what an instruction did before,
    for those that a prefix changes. -/
def Instr.under? (x : Index) : Instr → Option Instr
  | ld dst src => (dst.under? x).bind fun dst => (src.under? x).map (ld dst)
  | ldByte dst n => (dst.under? x).map (ldByte · n)
  | ldWord rr nn => some (ldWord (rr.swap x) nn)
  | ldPairFrom rr nn => some (ldPairFrom (rr.swap x) nn)
  | ldPairTo rr nn => some (ldPairTo (rr.swap x) nn)
  | ldSp rr => some (ldSp (rr.swap x))
  | push rr => some (push (rr.swap x))
  | pop rr => some (pop (rr.swap x))
  | exSp rr => some (exSp (rr.swap x))
  | alu op src => (src.under? x).map (alu op)
  | inc dst => (dst.under? x).map inc
  | dec dst => (dst.under? x).map dec
  | addPair dst src => some (addPair (dst.swap x) (src.swap x))
  | incPair rr => some (incPair (rr.swap x))
  | decPair rr => some (decPair (rr.swap x))
  | jpPair rr => some (jpPair (rr.swap x))
  | _ => none

/-- A load between operands has a counterpart if both operands have one. -/
theorem Instr.under?_ld {x : Index} {dst src : Operand} {j : Instr}
    (h : (ld dst src).under? x = some j) :
    ∃ dst' src', dst.under? x = some dst' ∧ src.under? x = some src' ∧ ld dst' src' = j := by
  obtain ⟨dst', hdst, hmap⟩ := Option.bind_eq_some_iff.mp h
  obtain ⟨src', hsrc, hj⟩ := Option.map_eq_some_iff.mp hmap
  exact ⟨dst', src', hdst, hsrc, hj⟩

namespace Machine

variable (m : Machine) (x : Index)

/-- Exchanging twice changes nothing. -/
theorem swapHl_swapHl : (m.swapHl x).swapHl x = m := by
  cases x <;> simp [swapHl, Registers.swapHl, Registers.setIndex, Registers.index, Bank.pair,
    Bank.setPair, Bank.set, Bank.get, Reg16.high, Reg16.low]

/-! ## What the exchange leaves alone -/

@[simp] theorem flags_swapHl : (m.swapHl x).flags = m.flags := by
  cases x <;> rfl

@[simp] theorem sp_swapHl : (m.swapHl x).regs.sp = m.regs.sp := by
  cases x <;> rfl

@[simp] theorem top_swapHl : (m.swapHl x).top = m.top := by
  cases x <;> rfl

@[simp] theorem setFlags_swapHl (f : Flags) :
    (m.swapHl x).setFlags f = (m.setFlags f).swapHl x := by
  cases x <;> rfl

@[simp] theorem alu_swapHl (op : AluOp) (v : Byte) :
    (m.swapHl x).alu op v = (m.alu op v).swapHl x := by
  cases x <;> rfl

@[simp] theorem setPc_swapHl (w : Word) : (m.swapHl x).setPc w = (m.setPc w).swapHl x := by
  cases x <;> rfl

@[simp] theorem storeWord_swapHl (a w : Word) :
    (m.swapHl x).storeWord a w = (m.storeWord a w).swapHl x := rfl

@[simp] theorem push_swapHl (w : Word) : (m.swapHl x).push w = (m.push w).swapHl x := by
  cases x <;> rfl

@[simp] theorem drop_swapHl : (m.swapHl x).drop = m.drop.swapHl x := by
  cases x <;> rfl

@[simp] theorem fetch_swapHl (d : Decoded) : (m.swapHl x).fetch d = (m.fetch d).swapHl x := by
  cases x <;> rfl

/-! ## Pairs and operands -/

@[simp] theorem pair_swap (rr : Pair) : (m.swapHl x).pair (rr.swap x) = m.pair rr := by
  cases rr with
  | bank rr => cases rr <;> cases x <;> rfl
  | sp => cases x <;> rfl
  | index y =>
    cases x <;> cases y <;> first | rfl | exact Word.ofBytes_hi_lo _

@[simp] theorem setPair_swap (rr : Pair) (w : Word) :
    (m.swapHl x).setPair (rr.swap x) w = (m.setPair rr w).swapHl x := by
  cases rr with
  | bank rr =>
    cases rr
    case hl =>
      -- HL is read back from its two halves
      cases x <;> simp [swapHl, Registers.swapHl, Pair.swap, setPair, Registers.setIndex,
        Registers.index, Bank.pair, Bank.setPair, Bank.set, Bank.get, Reg16.high, Reg16.low]
    all_goals cases x <;> rfl
  | sp => cases x <;> rfl
  | index y => cases x <;> cases y <;> rfl

variable {m x}

theorem read_under {o o' : Operand} (h : o.under? x = some o') :
    (m.swapHl x).read o' = m.read o := by
  cases o with
  | reg r =>
    cases r <;> cases h <;> cases x
    case h.refl.ix => exact Word.hi_ofBytes _ _
    case h.refl.iy => exact Word.hi_ofBytes _ _
    case l.refl.ix => exact Word.lo_ofBytes _ _
    case l.refl.iy => exact Word.lo_ofBytes _ _
    all_goals rfl
  | high y => cases h; cases x <;> cases y <;> rfl
  | low y => cases h; cases x <;> cases y <;> rfl
  | hl => cases h
  | indexed y d => cases h

/-- A half of HL is written by writing HL. -/
theorem setReg_h (v : Byte) :
    m.setReg .h v = m.setPair (.bank .hl) (Word.ofBytes v (m.reg .l)) := by
  dsimp only [setReg, setPair, Bank.setPair, Reg16.high, Reg16.low]
  rw [Word.hi_ofBytes, Word.lo_ofBytes]
  rfl

theorem setReg_l (v : Byte) :
    m.setReg .l v = m.setPair (.bank .hl) (Word.ofBytes (m.reg .h) v) := by
  dsimp only [setReg, setPair, Bank.setPair, Reg16.high, Reg16.low]
  rw [Word.hi_ofBytes, Word.lo_ofBytes]
  rfl

/-- A write goes to the counterpart of its operand.  A half is written by writing
    the pair, and for pairs this is `setPair_swap`. -/
theorem write_under {o o' : Operand} (h : o.under? x = some o') (v : Byte) :
    (m.swapHl x).write o' v = (m.write o v).swapHl x := by
  have hhigh : (m.swapHl x).regs.indexHigh x = m.reg .h := read_under (o := .reg .h) rfl
  have hlow : (m.swapHl x).regs.indexLow x = m.reg .l := read_under (o := .reg .l) rfl
  have hh : (m.swapHl x).reg .h = m.regs.indexHigh x := read_under (Operand.under?_high x)
  have hl : (m.swapHl x).reg .l = m.regs.indexLow x := read_under (Operand.under?_low x)
  have hindex (w : Word) :
      (m.swapHl x).setPair (.bank .hl) w = (m.setPair (.index x) w).swapHl x := by
    rw [← Pair.swap_index x, setPair_swap]
  cases o with
  | reg r =>
    cases r <;> cases h
    case h.refl =>
      show (m.swapHl x).setPair (.index x) (Word.ofBytes v _) = (m.setReg .h v).swapHl x
      rw [hlow, setReg_h]
      exact setPair_swap m x (.bank .hl) _
    case l.refl =>
      show (m.swapHl x).setPair (.index x) (Word.ofBytes _ v) = (m.setReg .l v).swapHl x
      rw [hhigh, setReg_l]
      exact setPair_swap m x (.bank .hl) _
    -- the other registers are not exchanged
    all_goals cases x <;> rfl
  | high y =>
    cases h
    by_cases hxy : y = x
    · rw [if_pos hxy, hxy]
      show (m.swapHl x).setReg .h v = _
      rw [setReg_h, hl, hindex]
      rfl
    · -- the other index register stays where it is
      rw [if_neg hxy]
      cases x <;> cases y <;> first | rfl | exact absurd rfl hxy
  | low y =>
    cases h
    by_cases hxy : y = x
    · rw [if_pos hxy, hxy]
      show (m.swapHl x).setReg .l v = _
      rw [setReg_l, hh, hindex]
      rfl
    · -- the other index register stays where it is
      rw [if_neg hxy]
      cases x <;> cases y <;> first | rfl | exact absurd rfl hxy
  | hl => cases h
  | indexed y d => cases h

theorem replace_under {o o' : Operand} (h : o.under? x = some o') (v : Byte) (f : Flags) :
    (m.swapHl x).replace o' v f = (m.replace o v f).swapHl x := by
  rw [replace, write_under h, setFlags_swapHl]
  rfl

/-! ## Instructions -/

/-- After the exchange the counterpart of an instruction does what the instruction
    does before it. -/
theorem effect_under {i j : Instr} (h : i.under? x = some j) (taken : Bool) :
    j.effect taken (m.swapHl x) = (i.effect taken m).swapHl x := by
  cases i
  case ld dst src =>
    obtain ⟨dst', src', hdst, hsrc, rfl⟩ := Instr.under?_ld h
    show (m.swapHl x).write dst' ((m.swapHl x).read src') = (m.write dst (m.read src)).swapHl x
    rw [read_under hsrc, write_under hdst]
  case ldByte dst n =>
    obtain ⟨dst', hdst, rfl⟩ := Option.map_eq_some_iff.mp h
    exact write_under hdst n
  case alu op src =>
    obtain ⟨src', hsrc, rfl⟩ := Option.map_eq_some_iff.mp h
    show (m.swapHl x).alu op ((m.swapHl x).read src') = (m.alu op (m.read src)).swapHl x
    rw [read_under hsrc, alu_swapHl]
  case inc dst =>
    obtain ⟨dst', hdst, rfl⟩ := Option.map_eq_some_iff.mp h
    simp only [Instr.effect, read_under hdst, flags_swapHl, replace_under hdst]
  case dec dst =>
    obtain ⟨dst', hdst, rfl⟩ := Option.map_eq_some_iff.mp h
    simp only [Instr.effect, read_under hdst, flags_swapHl, replace_under hdst]
  case ldPairFrom rr nn => cases h; exact setPair_swap m x rr _
  case ldWord rr nn => cases h; exact setPair_swap m x rr nn
  case ldPairTo rr nn => cases h; simp [Instr.effect]
  case ldSp rr =>
    cases h
    -- SP is its own counterpart
    show (m.swapHl x).setPair (Pair.sp.swap x) _ = (m.setPair .sp (m.pair rr)).swapHl x
    rw [pair_swap, setPair_swap]
  case push rr => cases h; simp [Instr.effect]
  case pop rr => cases h; simp [Instr.effect]
  case exSp rr => cases h; simp [Instr.effect]
  case addPair dst src => cases h; simp [Instr.effect]
  case incPair rr => cases h; simp [Instr.effect]
  case decPair rr => cases h; simp [Instr.effect]
  case jpPair rr => cases h; simp [Instr.effect]
  -- no other instruction has a counterpart
  all_goals cases h

end Machine

namespace Instr

theorem taken_under {x : Index} {i j : Instr} (h : i.under? x = some j) (m m' : Machine) :
    j.taken m = i.taken m' := by
  cases i
  case ld dst src =>
    obtain ⟨dst', src', -, -, rfl⟩ := under?_ld h
    rfl
  case ldByte | alu | inc | dec =>
    obtain ⟨o, -, rfl⟩ := Option.map_eq_some_iff.mp h
    rfl
  all_goals
    cases h
    try rfl

end Instr

/-- The counterpart of an operand takes the same time. -/
theorem Operand.time_under {x : Index} {o o' : Operand} (h : o.under? x = some o')
    (register cell displaced : Nat) :
    o'.time register cell displaced = o.time register cell displaced := by
  cases o with
  | reg r => cases r <;> cases h <;> rfl
  | high y => cases h; split <;> rfl
  | low y => cases h; split <;> rfl
  | hl => cases h
  | indexed y d => cases h

/-- An operand with a counterpart has no displacement, and neither has the
    counterpart. -/
theorem Operand.withDisp_under {x : Index} {o o' : Operand} (h : o.under? x = some o')
    (d : Int8) : o.withDisp d = o ∧ o'.withDisp d = o' ∧ o.hasDisp = o'.hasDisp := by
  cases o with
  | reg r => cases r <;> cases h <;> exact ⟨rfl, rfl, rfl⟩
  | high y => cases h; split <;> exact ⟨rfl, rfl, rfl⟩
  | low y => cases h; split <;> exact ⟨rfl, rfl, rfl⟩
  | hl => cases h
  | indexed y d => cases h

namespace Instr

/-- The counterpart of an instruction takes the same time. -/
theorem tail_under {x : Index} {i j : Instr} (h : i.under? x = some j) (taken : Bool) :
    j.tail taken = i.tail taken := by
  cases i
  case ld dst src =>
    obtain ⟨dst', src', hdst, hsrc, rfl⟩ := Instr.under?_ld h
    simp only [tail, Operand.time_under hdst, Operand.time_under hsrc]
  case ldByte | alu | inc | dec =>
    obtain ⟨o, ho, rfl⟩ := Option.map_eq_some_iff.mp h
    exact Operand.time_under ho _ _ _
  all_goals
    cases h
    try rfl

/-- Immediate bytes go to the same places of the counterpart. -/
theorem withBytes_under {x : Index} {i j : Instr} (h : i.under? x = some j) (n₁ n₂ : Byte) :
    (i.withBytes n₁ n₂).under? x = some (j.withBytes n₁ n₂) := by
  cases i
  case ld dst src =>
    obtain ⟨dst', src', hdst, hsrc, rfl⟩ := Instr.under?_ld h
    obtain ⟨hdst₁, hdst₂, -⟩ := Operand.withDisp_under hdst n₁.toInt8
    obtain ⟨hsrc₁, hsrc₂, -⟩ := Operand.withDisp_under hsrc n₁.toInt8
    simp only [withBytes, hdst₁, hdst₂, hsrc₁, hsrc₂]
    exact h
  case ldByte dst n =>
    obtain ⟨dst', hdst, rfl⟩ := Option.map_eq_some_iff.mp h
    obtain ⟨hdst₁, hdst₂, hdisp⟩ := Operand.withDisp_under hdst n₁.toInt8
    simp only [withBytes, hdst₁, hdst₂, hdisp, under?, hdst, Option.map_some]
  case alu _ o | inc o | dec o =>
    obtain ⟨o', ho, rfl⟩ := Option.map_eq_some_iff.mp h
    obtain ⟨ho₁, ho₂, -⟩ := Operand.withDisp_under ho n₁.toInt8
    simp only [withBytes, ho₁, ho₂]
    exact h
  all_goals
    cases h
    try rfl

end Instr

/-! ## Encodings -/

/-- Whether a prefix changes an opcode to work on an index register itself, and
    not on a cell at a displacement from it. -/
def Page.takesIndex (op : Byte) : Bool :=
  Decode.indexAffects op && op != 0xCB && !hasCell op

/-- Behind a prefix the decoder finds the counterpart, one byte longer. -/
theorem Page.template_under (x : Index) {op : Byte} (h : takesIndex op = true) :
    (template (main none) op).instr.under? x = some (template (main (some x)) op).instr ∧
      (template (main (some x)) op).size = 1 + (template (main none) op).size := by
  revert op
  rw [Byte.forall_iff]
  cases x <;> decide +kernel

theorem Page.ne_of_takesIndex {op : Byte} (h : takesIndex op = true) :
    op ≠ 0xCB ∧ ¬(op = 0xDD ∨ op = 0xFD ∨ op = 0xED) :=
  ne_prefix (by decide) h

namespace Machine

/-- The machine that has fetched a prefix byte. -/
def behindPrefix (m : Machine) : Machine :=
  { m with regs := { m.regs with
      pc := m.regs.pc + 1
      r := Registers.refreshed m.regs.r } }

variable {m : Machine} {x : Index}

theorem encoding_indexed (hcode : m.mem.get m.pc = x.code)
    (htakes : Page.takesIndex (m.mem.get (m.pc + 1)) = true) :
    m.encoding = ⟨.main (some x), m.mem.get (m.pc + 1), m.mem.get (m.pc + 2),
      m.mem.get (m.pc + 3)⟩ := by
  obtain ⟨hcb, hidle⟩ := Page.ne_of_takesIndex htakes
  have hbehind (b₂ b₃ : Byte) : Encoding.behindIndex x (m.mem.get (m.pc + 1)) b₂ b₃ =
      ⟨.main (some x), m.mem.get (m.pc + 1), b₂, b₃⟩ := by
    rw [Encoding.behindIndex, if_neg hidle, if_neg hcb]
  rw [encoding, hcode, ← hbehind]
  cases x <;> rfl

/-- Without the prefix the same bytes are an instruction of the main page. -/
theorem encoding_behindPrefix (htakes : Page.takesIndex (m.mem.get (m.pc + 1)) = true) :
    (m.behindPrefix.swapHl x).encoding = ⟨.main none, m.mem.get (m.pc + 1),
      m.mem.get (m.pc + 2), m.mem.get (m.pc + 3)⟩ := by
  have hmem : (m.behindPrefix.swapHl x).mem = m.mem := rfl
  have hpc : (m.behindPrefix.swapHl x).pc = m.pc + 1 := by
    cases x <;> rfl
  have htwo : m.pc + 1 + 1 = m.pc + 2 := UInt16.add_assoc _ _ _
  have hthree : m.pc + 1 + 2 = m.pc + 3 := UInt16.add_assoc _ _ _
  rw [encoding, hmem, hpc, htwo, hthree,
    Encoding.ofBytes_main (Page.ne_of_takesIndex htakes)]

/-- A prefix and an opcode are fetched one after the other. -/
theorem fetch_behindPrefix {d e : Decoded} (hsize : e.size = 1 + d.size)
    (he : e.prefixed = true) (hd : d.prefixed = false) :
    m.fetch e = m.behindPrefix.fetch d := by
  have hpc : m.regs.pc + e.size.toUInt16 = m.regs.pc + 1 + d.size.toUInt16 := by
    rw [hsize, UInt16.add_assoc]
    congr 1
    exact UInt16.ofNat_add 1 d.size
  simp only [fetch, behindPrefix, he, hd, hpc, if_true, Bool.false_eq_true, if_false]

/-- Behind DD or FD, an opcode whose operands are registers does what the opcode
    alone does when HL and the index register have been exchanged before it and
    are exchanged again after it, in four T-states more. -/
theorem step_indexed (m : Machine) (x : Index) (hcode : m.mem.get m.pc = x.code)
    (htakes : Page.takesIndex (m.mem.get (m.pc + 1)) = true) :
    let plain := m.behindPrefix.swapHl x
    m.execute m.current =
        { (plain.execute plain.current).swapHl x with
          cycles := (plain.execute plain.current).cycles + 4 } ∧
      (m.halted = false →
        m.step = { plain.step.swapHl x with cycles := plain.step.cycles + 4 }) := by
  intro plain
  -- the same bytes, read with the prefix and from behind it
  have hm : m.encoding = _ := encoding_indexed hcode htakes
  have hplain : plain.encoding = _ := encoding_behindPrefix htakes
  obtain ⟨hunder, hsize⟩ := Page.template_under x htakes
  have hinstr : plain.instr.under? x = some m.instr := by
    rw [instr, instr, template, template, hm, hplain]
    exact Instr.withBytes_under hunder _ _
  -- what is fetched differs by the exchange only, as the exchange leaves PC and R alone
  have hfetched : m.fetched = plain.fetched.swapHl x := by
    rw [fetched, fetched, fetch_swapHl, swapHl_swapHl]
    apply fetch_behindPrefix
    · rw [template, template, hm, hplain]
      exact hsize
    · rw [template, hm]
      rfl
    · rw [template, hplain]
      rfl
  have htime : fetchTime m.template = fetchTime plain.template + 4 := by
    rw [template, template, hm, hplain]
    rfl
  have hexecute : m.execute m.current =
      { (plain.execute plain.current).swapHl x with
        cycles := (plain.execute plain.current).cycles + 4 } := by
    rw [execute_current m, execute_current plain, hfetched, effect_under hinstr,
      Instr.taken_under hinstr _ plain.fetched, Instr.tail_under hinstr, htime,
      Nat.add_right_comm]
    rfl
  refine ⟨hexecute, fun hrunning => ?_⟩
  have hrunning' : plain.halted = false := hrunning
  rw [step_of_running hrunning, step_of_running hrunning']
  exact hexecute

/-- ADD IX,IX across the top of memory. -/
theorem step_indexed_atCode_add :
    (atCode 0xFFFF [0xDD, 0x29]).mem.get (atCode 0xFFFF [0xDD, 0x29]).pc = Index.ix.code ∧
      Page.takesIndex
        ((atCode 0xFFFF [0xDD, 0x29]).mem.get ((atCode 0xFFFF [0xDD, 0x29]).pc + 1)) = true ∧
      (atCode 0xFFFF [0xDD, 0x29]).step.regs.ix = 0xFFFE ∧
      (atCode 0xFFFF [0xDD, 0x29]).step.cycles = 15 := by
  have hcode : (atCode 0xFFFF [0xDD, 0x29]).mem.get (atCode 0xFFFF [0xDD, 0x29]).pc =
      Index.ix.code := by
    simp [atCode, pc, Space.load, Space.get_set, Index.code]
  have hop : (atCode 0xFFFF [0xDD, 0x29]).mem.get ((atCode 0xFFFF [0xDD, 0x29]).pc + 1) = 0x29 := by
    simp [atCode, pc, Space.load]
  have htakes : Page.takesIndex
      ((atCode 0xFFFF [0xDD, 0x29]).mem.get ((atCode 0xFFFF [0xDD, 0x29]).pc + 1)) = true := by
    rw [hop]
    decide
  obtain ⟨-, hstep⟩ := step_indexed (atCode 0xFFFF [0xDD, 0x29]) .ix hcode htakes
  have hplain := encoding_behindPrefix (x := .ix) htakes
  rw [hop] at hplain
  refine ⟨hcode, htakes, ?_, ?_⟩
  · rw [hstep rfl, step_eq_effect rfl, instr, fetched, template, hplain]
    decide
  · rw [hstep rfl, step_eq_effect rfl, instr, fetched, template, hplain]
    rfl

end Machine

end Z80
