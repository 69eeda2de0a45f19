/-
  Z80.Proofs.IndexSymmetry

  IX and IY in each other's place.

  Nothing but the prefix byte tells the two index registers apart: with their contents
  exchanged, FD does what DD did, and DD what FD did.  `effect_swapIndex` says so of the
  instructions and `tryIndexed_swapIndex` of the bytes behind a prefix, faults included.
-/

import Z80.Proofs.Faults
import Z80.Proofs.IndexSubstitution

namespace Z80

/-! ## The exchange -/

/-- The other index register. -/
def Index.other : Index → Index
  | ix => iy
  | iy => ix

/-- The operand with the other index register. -/
def Operand.swapIndex : Operand → Operand
  | high x => high x.other
  | low x => low x.other
  | indexed x d => indexed x.other d
  | o => o

/-- The pair, an index register being the other one. -/
def Pair.swapIndex : Pair → Pair
  | index x => index x.other
  | rr => rr

/-- The opcode without an instruction behind the other prefix. -/
def Opcode.swapIndex : Opcode → Opcode
  | indexCb x d op => indexCb x.other d op
  | o => o

/-- The fault with the opcode behind the other prefix. -/
def Fault.swapIndex (e : Fault) : Fault :=
  { e with opcode := e.opcode.swapIndex }

/-- The instruction on the other index register. -/
def Instr.swapIndex : Instr → Instr
  | ld dst src => ld dst.swapIndex src.swapIndex
  | ldByte dst n => ldByte dst.swapIndex n
  | ldWord rr nn => ldWord rr.swapIndex nn
  | ldPairFrom rr nn => ldPairFrom rr.swapIndex nn
  | ldPairTo rr nn => ldPairTo rr.swapIndex nn
  | ldSp rr => ldSp rr.swapIndex
  | push rr => push rr.swapIndex
  | pop rr => pop rr.swapIndex
  | exSp rr => exSp rr.swapIndex
  | alu op src => alu op src.swapIndex
  | inc dst => inc dst.swapIndex
  | dec dst => dec dst.swapIndex
  | addPair dst src => addPair dst.swapIndex src.swapIndex
  | adcHl src => adcHl src.swapIndex
  | sbcHl src => sbcHl src.swapIndex
  | incPair rr => incPair rr.swapIndex
  | decPair rr => decPair rr.swapIndex
  | rot op target copy => rot op target.swapIndex copy
  | bit n src => bit n src.swapIndex
  | res n target copy => res n target.swapIndex copy
  | set n target copy => set n target.swapIndex copy
  | jpPair rr => jpPair rr.swapIndex
  | unimplemented opcode => unimplemented opcode.swapIndex
  | i => i

/-- The instruction on the other index register, of the same bytes but for the prefix. -/
def Decoded.swapIndex (d : Decoded) : Decoded :=
  { d with instr := d.instr.swapIndex }

/-- The page behind the other prefix. -/
def Page.swapIndex : Page → Page
  | main (some x) => main (some x.other)
  | indexCb x => indexCb x.other
  | p => p

/-- The registers with IX and IY exchanged. -/
def Registers.swapIndex (k : Registers) : Registers :=
  { k with ix := k.iy, iy := k.ix }

/-- The machine with IX and IY exchanged. -/
def Machine.swapIndex (m : Machine) : Machine :=
  { m with regs := m.regs.swapIndex }

/-! ## Operands -/

namespace Machine

variable (m : Machine)

@[simp] theorem read_swapIndex (o : Operand) : m.swapIndex.read o.swapIndex = m.read o := by
  cases o with
  | high x => cases x <;> rfl
  | low x => cases x <;> rfl
  | indexed x d => cases x <;> rfl
  | _ => rfl

@[simp] theorem write_swapIndex (o : Operand) (v : Byte) :
    m.swapIndex.write o.swapIndex v = (m.write o v).swapIndex := by
  cases o with
  | high x => cases x <;> rfl
  | low x => cases x <;> rfl
  | indexed x d => cases x <;> rfl
  | _ => rfl

@[simp] theorem address?_swapIndex (o : Operand) :
    m.swapIndex.address? o.swapIndex = m.address? o := by
  cases o with
  | indexed x d => cases x <;> rfl
  | _ => rfl

@[simp] theorem pair_swapIndex (rr : Pair) : m.swapIndex.pair rr.swapIndex = m.pair rr := by
  cases rr with
  | index x => cases x <;> rfl
  | _ => rfl

@[simp] theorem setPair_swapIndex (rr : Pair) (w : Word) :
    m.swapIndex.setPair rr.swapIndex w = (m.setPair rr w).swapIndex := by
  cases rr with
  | index x => cases x <;> rfl
  | _ => rfl

/-! ## What the exchange leaves alone -/

@[simp] theorem flags_swapIndex : m.swapIndex.flags = m.flags := rfl

@[simp] theorem mem_swapIndex : m.swapIndex.mem = m.mem := rfl

@[simp] theorem sp_swapIndex : m.swapIndex.regs.sp = m.regs.sp := rfl

@[simp] theorem top_swapIndex : m.swapIndex.top = m.top := rfl

@[simp] theorem drop_swapIndex : m.swapIndex.drop = m.drop.swapIndex := rfl

@[simp] theorem push_swapIndex (w : Word) : m.swapIndex.push w = (m.push w).swapIndex := rfl

@[simp] theorem storeWord_swapIndex (a w : Word) :
    m.swapIndex.storeWord a w = (m.storeWord a w).swapIndex := rfl

@[simp] theorem setFlags_swapIndex (f : Flags) :
    m.swapIndex.setFlags f = (m.setFlags f).swapIndex := rfl

@[simp] theorem setPc_swapIndex (w : Word) : m.swapIndex.setPc w = (m.setPc w).swapIndex := rfl

@[simp] theorem alu_swapIndex (op : AluOp) (v : Byte) :
    m.swapIndex.alu op v = (m.alu op v).swapIndex := rfl

@[simp] theorem copyTo_swapIndex (r? : Option Reg8) (v : Byte) :
    m.swapIndex.copyTo r? v = (m.copyTo r? v).swapIndex := by
  cases r? <;> rfl

@[simp] theorem jumpIf_swapIndex (taken : Bool) (w : Word) :
    m.swapIndex.jumpIf taken w = (m.jumpIf taken w).swapIndex := by
  cases taken <;> rfl

/-! ## Instructions -/

/-- After the exchange the instruction on the other index register does what the
    instruction does before it. -/
theorem effect_swapIndex (i : Instr) (taken : Bool) :
    i.swapIndex.effect taken m.swapIndex = (i.effect taken m).swapIndex := by
  cases i with
  | ldSp rr =>
    -- SP is its own counterpart
    show m.swapIndex.setPair .sp (m.swapIndex.pair rr.swapIndex) = _
    rw [pair_swapIndex]
    rfl
  | adcHl src =>
    show (m.swapIndex.setFlags _).setPair (.bank .hl) _ = _
    simp only [pair_swapIndex]
    rfl
  | sbcHl src =>
    show (m.swapIndex.setFlags _).setPair (.bank .hl) _ = _
    simp only [pair_swapIndex]
    rfl
  | call cc? nn => cases taken <;> rfl
  | ret cc? => cases taken <;> rfl
  | jp cc? nn => exact jumpIf_swapIndex m taken nn
  | jr cc? d => exact jumpIf_swapIndex m taken _
  | djnz d => exact jumpIf_swapIndex (m.setReg .b (m.reg .b - 1)) taken _
  | block op dir repeats =>
    have hblock : m.swapIndex.block op dir = (m.block op dir).swapIndex := by
      cases op <;> rfl
    show (m.swapIndex.block op dir).jumpIf taken (m.pc - 2) = _
    rw [hblock, jumpIf_swapIndex]
    rfl
  | ld | ldByte | ldWord | ldPairFrom | ldPairTo | push | pop | exSp | alu | inc | dec | addPair
  | incPair | decPair | rot | bit | res | set | jpPair =>
    simp [Instr.swapIndex, Instr.effect, rotate, replace]
  -- the others have no operand that the exchange moves
  | _ => rfl

theorem taken_swapIndex (i : Instr) : i.swapIndex.taken m.swapIndex = i.taken m := by
  cases i with
  | block op dir repeats => cases op <;> rfl
  | _ => rfl

end Machine

theorem Operand.time_swapIndex (o : Operand) (register cell displaced : Nat) :
    o.swapIndex.time register cell displaced = o.time register cell displaced := by
  cases o <;> rfl

theorem Instr.tail_swapIndex (i : Instr) (taken : Bool) : i.swapIndex.tail taken = i.tail taken := by
  cases i with
  | ld dst src => simp only [swapIndex, tail, Operand.time_swapIndex]
  | ldByte dst n => exact Operand.time_swapIndex dst _ _ _
  | alu op src => exact Operand.time_swapIndex src _ _ _
  | inc dst => exact Operand.time_swapIndex dst _ _ _
  | dec dst => exact Operand.time_swapIndex dst _ _ _
  | rot op target copy => exact Operand.time_swapIndex target _ _ _
  | bit n src => exact Operand.time_swapIndex src _ _ _
  | res n target copy => exact Operand.time_swapIndex target _ _ _
  | set n target copy => exact Operand.time_swapIndex target _ _ _
  | unimplemented opcode => cases opcode <;> rfl
  | _ => rfl

theorem Instr.opcode?_swapIndex (i : Instr) :
    i.swapIndex.opcode? = i.opcode?.map Opcode.swapIndex := by
  cases i <;> rfl

/-! ## Encodings -/

theorem Operand.withDisp_swapIndex (o : Operand) (d : Int8) :
    o.swapIndex.withDisp d = (o.withDisp d).swapIndex := by
  cases o <;> rfl

theorem Operand.hasDisp_swapIndex (o : Operand) : o.swapIndex.hasDisp = o.hasDisp := by
  cases o <;> rfl

/-- Immediate bytes go to the same places. -/
theorem Instr.withBytes_swapIndex (i : Instr) (n₁ n₂ : Byte) :
    i.swapIndex.withBytes n₁ n₂ = (i.withBytes n₁ n₂).swapIndex := by
  cases i with
  | ld | ldByte | alu | inc | dec | rot | bit | res | set =>
    simp only [swapIndex, withBytes, Operand.withDisp_swapIndex, Operand.hasDisp_swapIndex]
  | unimplemented opcode => cases opcode <;> rfl
  | _ => rfl

namespace Page

/-- Behind the other prefix the decoder finds the same instruction on the other index
    register. -/
theorem template_swapIndex (p : Page) (op : Byte) :
    p.swapIndex.template op = (p.template op).swapIndex := by
  revert p op
  exact forall_opcode (by decide +kernel)

theorem decode_swapIndex (p : Page) (op n₁ n₂ : Byte) :
    p.swapIndex.decode op n₁ n₂ = (p.decode op n₁ n₂).swapIndex := by
  rw [decode_eq_withBytes, decode_eq_withBytes p, template_swapIndex]
  simp only [Decoded.swapIndex, Instr.withBytes_swapIndex]

end Page

theorem indexed_swapIndex (x : Index) (b₁ b₂ b₃ : Byte) :
    Decode.indexed x.other b₁ b₂ b₃ = (Decode.indexed x b₁ b₂ b₃).swapIndex := by
  have hother : Encoding.behindIndex x.other b₁ b₂ b₃ =
      let e := Encoding.behindIndex x b₁ b₂ b₃
      { e with page := e.page.swapIndex } := by
    unfold Encoding.behindIndex
    split
    · rfl
    · split <;> rfl
  rw [indexed_eq_decode, indexed_eq_decode, hother]
  exact Page.decode_swapIndex _ _ _ _

/-! ## Behind a prefix -/

namespace Machine

/-- The instruction of a DD or FD byte that has been fetched and of the bytes from the
    program counter on. -/
def indexed (m : Machine) (x : Index) : Decoded :=
  Decode.indexed x (m.mem.get m.pc) (m.mem.get (m.pc + 1)) (m.mem.get (m.pc + 2))

/-- The machine that has fetched a DD or FD byte when it has fetched the rest. -/
def fetchIndexed (m : Machine) (d : Decoded) : Machine :=
  { m with regs := { m.regs with
      pc := m.regs.pc + (d.size - 1).toUInt16
      r := if d.prefixed then Registers.refreshed m.regs.r else m.regs.r } }

/-- The machine that has fetched a DD or FD byte goes on with the bytes behind it. -/
def executeIndexed (m : Machine) (x : Index) : Machine :=
  let d := m.indexed x
  let fetched := m.fetchIndexed d
  let taken := d.instr.taken fetched
  { d.instr.effect taken fetched with cycles := fetchTime d + d.instr.tail taken }

/-- The same with its T-states, or with the fault of an instruction that starts at
    `start`. -/
def tryIndexed (m : Machine) (start : Word) (x : Index) : Machine × Except Fault Nat :=
  (m.executeIndexed x, match (m.indexed x).instr.opcode? with
    | some opcode => .error ⟨start, opcode⟩
    | none => .ok (m.executeIndexed x).cycles)

theorem indexed_behindPrefix {m : Machine} {x : Index} (hcode : m.mem.get m.pc = x.code) :
    m.behindPrefix.indexed x = m.current := by
  have htwo : m.pc + 1 + 1 = m.pc + 2 := UInt16.add_assoc _ _ _
  have hthree : m.pc + 1 + 2 = m.pc + 3 := UInt16.add_assoc _ _ _
  rw [current, hcode, decode_code, ← htwo, ← hthree]
  rfl

theorem size_indexed (m : Machine) (x : Index) : 1 ≤ (m.indexed x).size := by
  unfold indexed Decode.indexed
  split
  case h_4 => exact (by decide : 1 ≤ 4)
  case h_5 => exact Nat.le_trans (by decide) (Nat.le_add_right 2 _)
  all_goals exact Nat.le_refl 1

/-- A step on a DD or FD byte fetches it and goes on. -/
theorem tryStep_of_code {m : Machine} {x : Index} (h : m.halted = false)
    (hcode : m.mem.get m.pc = x.code) : m.tryStep = m.behindPrefix.tryIndexed m.pc x := by
  have hindexed : m.behindPrefix.indexed x = m.current := indexed_behindPrefix hcode
  have hfetch : m.behindPrefix.fetchIndexed m.current = m.fetch m.current := by
    obtain ⟨n, hn⟩ : ∃ n, m.current.size = 1 + n :=
      Nat.exists_eq_add_of_le (hindexed ▸ size_indexed _ x)
    have hpc : m.regs.pc + 1 + (m.current.size - 1).toUInt16 =
        m.regs.pc + m.current.size.toUInt16 := by
      rw [hn, Nat.add_sub_cancel_left, UInt16.add_assoc]
      congr 1
      exact (UInt16.ofNat_add 1 n).symm
    simp only [fetchIndexed, fetch, behindPrefix, hpc]
  have hexecute : m.behindPrefix.executeIndexed x = m.step := by
    rw [step_of_running h, executeIndexed, hindexed, hfetch]
    rfl
  rw [tryStep, tryIndexed, hindexed, hexecute, fault?, h]
  cases m.current.instr <;> rfl

theorem indexed_swapIndex_other (m : Machine) (x : Index) :
    m.swapIndex.indexed x.other = (m.indexed x).swapIndex :=
  indexed_swapIndex x _ _ _

theorem executeIndexed_swapIndex (m : Machine) (x : Index) :
    m.swapIndex.executeIndexed x.other = (m.executeIndexed x).swapIndex := by
  have hfetch : m.swapIndex.fetchIndexed (m.indexed x).swapIndex =
      (m.fetchIndexed (m.indexed x)).swapIndex := rfl
  simp only [executeIndexed]
  rw [indexed_swapIndex_other, hfetch]
  simp only [Decoded.swapIndex, effect_swapIndex, taken_swapIndex, Instr.tail_swapIndex]
  rfl

/-- With IX and IY exchanged, what the other prefix does with the same bytes behind it is
    what the one did, up to that exchange: the same T-states, or the same fault with the
    other index register, and every other register, memory and ports the same.  This is
    what a step does on a prefix byte. -/
theorem tryIndexed_swapIndex (m : Machine) (x : Index) :
    (∀ start, m.swapIndex.tryIndexed start x.other =
      ((m.tryIndexed start x).1.swapIndex,
        (m.tryIndexed start x).2.mapError Fault.swapIndex)) ∧
    (m.halted = false → m.mem.get m.pc = x.code →
      m.tryStep = m.behindPrefix.tryIndexed m.pc x) := by
  refine ⟨fun start => ?_, tryStep_of_code⟩
  have hopcode : (m.swapIndex.indexed x.other).instr.opcode? =
      (m.indexed x).instr.opcode?.map Opcode.swapIndex := by
    rw [indexed_swapIndex_other]
    exact Instr.opcode?_swapIndex _
  rw [tryIndexed, tryIndexed, executeIndexed_swapIndex, hopcode]
  cases (m.indexed x).instr.opcode? <;> rfl

/-- The opcode DD CB 01 36, which has no instruction, and the same bytes behind FD. -/
theorem tryIndexed_swapIndex_atCode :
    let m := atCode 0xFFFF [0xDD, 0xCB, 0x01, 0x36]
    m.halted = false ∧ m.mem.get m.pc = Index.ix.code ∧
      m.tryStep.2 = .error ⟨0xFFFF, .indexCb .ix 1 0x36⟩ ∧
      (m.behindPrefix.swapIndex.tryIndexed 0xFFFF .iy).2 =
        .error ⟨0xFFFF, .indexCb .iy 1 0x36⟩ := by
  intro m
  have hcode : m.mem.get m.pc = Index.ix.code := by
    simp [m, atCode, pc, Space.load, Space.get_set, Index.code]
  have hindexed : m.behindPrefix.indexed .ix =
      ⟨.unimplemented (.indexCb .ix 1 0x36), 4, true⟩ := by
    simp [m, atCode, behindPrefix, indexed, pc, Space.load, Space.get_set]
    decide
  have hreport : (m.behindPrefix.tryIndexed 0xFFFF .ix).2 =
      .error ⟨0xFFFF, .indexCb .ix 1 0x36⟩ := by
    rw [tryIndexed, hindexed]
    rfl
  obtain ⟨-, hstep⟩ := tryIndexed_swapIndex m .ix
  obtain ⟨hother, -⟩ := tryIndexed_swapIndex m.behindPrefix .ix
  refine ⟨rfl, hcode, ?_, ?_⟩
  · rw [hstep rfl hcode]
    exact hreport
  · rw [show Index.iy = Index.ix.other from rfl, hother, hreport]
    rfl

end Machine

end Z80
