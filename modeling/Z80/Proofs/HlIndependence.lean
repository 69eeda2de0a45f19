/-
  Z80.Proofs.HlIndependence

  Instructions without HL.

  An instruction that does not name HL, H, L or the cell at HL (`Instr.namesHl`) does the
  same whatever HL holds, and leaves it (`effect_withHl`, `hl_effect`).  On the main page
  these are the opcodes that a DD or FD prefix does not change, but for EX DE,HL and EXX
  (`Page.namesHl_template`).  So of two runs that differ in HL alone both do the same there
  (`tryStep_withHl`), and a prefix that is passed over has not been needed.
-/

import Z80.Proofs.PrefixChains

namespace Z80

/-! ## Naming HL -/

/-- Whether a register is a half of HL. -/
def Reg8.namesHl : Reg8 → Bool
  | h | l => true
  | _ => false

/-- Whether an operand is a half of HL or the cell at HL. -/
def Operand.namesHl : Operand → Bool
  | reg r => r.namesHl
  | hl => true
  | _ => false

/-- Whether a register pair is HL. -/
def Pair.namesHl : Pair → Bool
  | bank .hl => true
  | _ => false

/-- Whether an instruction reads or writes HL. -/
def Instr.namesHl : Instr → Bool
  | ld dst src => dst.namesHl || src.namesHl
  | ldByte o _ | alu _ o | inc o | dec o | bit _ o => o.namesHl
  | rot _ target copy | res _ target copy | set _ target copy =>
    target.namesHl || copy.any Reg8.namesHl
  | inC r | outC r => r.namesHl
  | ldAFromPair rr | ldAToPair rr => (Pair.bank rr).namesHl
  | ldWord rr _ | ldPairFrom rr _ | ldPairTo rr _ | ldSp rr | push rr | pop rr | exSp rr
  | incPair rr | decPair rr | jpPair rr => rr.namesHl
  | addPair dst src => dst.namesHl || src.namesHl
  | exDeHl | exx | adcHl _ | sbcHl _ | rld | rrd | block _ _ _ => true
  | _ => false

theorem Operand.namesHl_withDisp (o : Operand) (d : Int8) :
    (o.withDisp d).namesHl = o.namesHl := by
  cases o <;> rfl

/-- Immediate bytes name no register. -/
theorem Instr.namesHl_withBytes (i : Instr) (n₁ n₂ : Byte) :
    (i.withBytes n₁ n₂).namesHl = i.namesHl := by
  cases i with
  | ld | ldByte | alu | inc | dec | rot | bit | res | set =>
    simp only [withBytes, namesHl, Operand.namesHl_withDisp]
  | unimplemented opcode => cases opcode <;> rfl
  | _ => rfl

/-- The opcodes of the main page that name HL are those that a prefix changes, with EX DE,HL
    and EXX.  The prefix bytes, CB among them, have their instructions on other pages. -/
theorem Page.namesHl_template {op : Byte} (hcb : op ≠ 0xCB) (hidle : ¬Decode.Idles op) :
    (template (main none) op).instr.namesHl =
      (Decode.indexAffects op || op == 0xEB || op == 0xD9) := by
  revert op
  rw [Byte.forall_iff]
  decide +kernel

namespace Machine

/-- The machine with HL replaced. -/
def withHl (m : Machine) (w : Word) : Machine :=
  m.setPair (.bank .hl) w

variable (m : Machine) (w : Word)

theorem withHl_hl : m.withHl m.hl = m := by
  have hh : m.hl.hi = m.regs.main.h := Word.hi_ofBytes _ _
  have hl : m.hl.lo = m.regs.main.l := Word.lo_ofBytes _ _
  show { m with regs := { m.regs with main := { m.regs.main with h := m.hl.hi, l := m.hl.lo } } } = m
  rw [hh, hl]

@[simp] theorem hl_withHl : (m.withHl w).hl = w :=
  Word.ofBytes_hi_lo w

@[simp] theorem pc_withHl : (m.withHl w).pc = m.pc := rfl

/-! ## Operations -/

@[simp] theorem flags_withHl : (m.withHl w).flags = m.flags := rfl

theorem copyTo_withHl {r? : Option Reg8} (h : r?.any Reg8.namesHl = false) (v : Byte) :
    (m.withHl w).copyTo r? v = (m.copyTo r? v).withHl w := by
  cases r? with
  | none => rfl
  | some r => cases r <;> cases h <;> rfl

theorem read_withHl {o : Operand} (h : o.namesHl = false) : (m.withHl w).read o = m.read o := by
  cases o with
  | reg r => cases r <;> cases h <;> rfl
  | high x => cases x <;> rfl
  | low x => cases x <;> rfl
  | hl => cases h
  | indexed x d => cases x <;> rfl

theorem write_withHl {o : Operand} (h : o.namesHl = false) (v : Byte) :
    (m.withHl w).write o v = (m.write o v).withHl w := by
  cases o with
  | reg r =>
    have hr : (some r).any Reg8.namesHl = false := h
    exact copyTo_withHl m w hr v
  | high x => cases x <;> rfl
  | low x => cases x <;> rfl
  | hl => cases h
  | indexed x d => cases x <;> rfl

theorem address?_withHl {o : Operand} (h : o.namesHl = false) :
    (m.withHl w).address? o = m.address? o := by
  cases o with
  | hl => cases h
  | indexed x d => cases x <;> rfl
  | _ => rfl

theorem pair_withHl {rr : Pair} (h : rr.namesHl = false) : (m.withHl w).pair rr = m.pair rr := by
  cases rr with
  | bank rr => cases rr <;> cases h <;> rfl
  | sp => rfl
  | index x => cases x <;> rfl

theorem setPair_withHl {rr : Pair} (h : rr.namesHl = false) (v : Word) :
    (m.withHl w).setPair rr v = (m.setPair rr v).withHl w := by
  cases rr with
  | bank rr => cases rr <;> cases h <;> rfl
  | sp => rfl
  | index x => cases x <;> rfl

theorem replace_withHl {o : Operand} (h : o.namesHl = false) (v : Byte) (f : Flags) :
    (m.withHl w).replace o v f = (m.replace o v f).withHl w := by
  rw [replace, write_withHl m w h]
  rfl

theorem jumpIf_withHl (taken : Bool) (target : Word) :
    (m.withHl w).jumpIf taken target = (m.jumpIf taken target).withHl w := by
  cases taken <;> rfl

/-! ## Instructions -/

/-- An instruction that does not name HL does the same whatever HL holds, and leaves it. -/
theorem effect_withHl {i : Instr} (h : i.namesHl = false) (taken : Bool) :
    i.effect taken (m.withHl w) = (i.effect taken m).withHl w := by
  cases i with
  | ld dst src =>
    obtain ⟨hdst, hsrc⟩ := Bool.or_eq_false_iff.mp h
    simp only [Instr.effect, read_withHl m w hsrc, write_withHl m w hdst]
  | ldByte dst n => exact write_withHl m w h n
  | ldAFromPair rr =>
    simp only [Instr.effect, pair_withHl m w h]
    rfl
  | ldAToPair rr =>
    simp only [Instr.effect, pair_withHl m w h]
    rfl
  | ldWord rr nn => exact setPair_withHl m w h nn
  | ldPairFrom rr nn => exact setPair_withHl m w h _
  | ldPairTo rr nn =>
    simp only [Instr.effect, pair_withHl m w h]
    rfl
  | ldSp rr =>
    simp only [Instr.effect, pair_withHl m w h]
    rfl
  | push rr =>
    simp only [Instr.effect, pair_withHl m w h]
    rfl
  | pop rr => exact setPair_withHl m.drop w h _
  | exSp rr =>
    simp only [Instr.effect, pair_withHl m w h]
    exact setPair_withHl (m.storeWord m.regs.sp (m.pair rr)) w h _
  | alu op src =>
    simp only [Instr.effect, read_withHl m w h]
    rfl
  | inc dst => simp only [Instr.effect, read_withHl m w h, replace_withHl m w h, flags_withHl]
  | dec dst => simp only [Instr.effect, read_withHl m w h, replace_withHl m w h, flags_withHl]
  | addPair dst src =>
    obtain ⟨hdst, hsrc⟩ := Bool.or_eq_false_iff.mp h
    simp only [Instr.effect, pair_withHl m w hdst, pair_withHl m w hsrc]
    exact setPair_withHl (m.setFlags _) w hdst _
  | incPair rr => simp only [Instr.effect, pair_withHl m w h, setPair_withHl m w h]
  | decPair rr => simp only [Instr.effect, pair_withHl m w h, setPair_withHl m w h]
  | rot op target copy =>
    obtain ⟨htarget, hcopy⟩ := Bool.or_eq_false_iff.mp h
    simp only [Instr.effect, rotate, read_withHl m w htarget, write_withHl m w htarget,
      copyTo_withHl _ w hcopy]
    rfl
  | bit n src =>
    simp only [Instr.effect, read_withHl m w h, address?_withHl m w h]
    rfl
  | res n target copy =>
    obtain ⟨htarget, hcopy⟩ := Bool.or_eq_false_iff.mp h
    simp only [Instr.effect, read_withHl m w htarget, write_withHl m w htarget,
      copyTo_withHl _ w hcopy]
  | set n target copy =>
    obtain ⟨htarget, hcopy⟩ := Bool.or_eq_false_iff.mp h
    simp only [Instr.effect, read_withHl m w htarget, write_withHl m w htarget,
      copyTo_withHl _ w hcopy]
  | jp cc? nn => exact jumpIf_withHl m w taken nn
  | jpPair rr =>
    simp only [Instr.effect, pair_withHl m w h]
    rfl
  | jr cc? d => exact jumpIf_withHl m w taken _
  | djnz d => exact jumpIf_withHl (m.setReg .b (m.reg .b - 1)) w taken _
  | call cc? nn => cases taken <;> rfl
  | ret cc? => cases taken <;> rfl
  | inC r => cases r <;> cases h <;> rfl
  | outC r => cases r <;> cases h <;> rfl
  | exDeHl | exx | adcHl | sbcHl | rld | rrd | block => cases h
  | _ => rfl

theorem taken_withHl {i : Instr} (h : i.namesHl = false) : i.taken (m.withHl w) = i.taken m := by
  cases i with
  | block op dir repeats => cases h
  | _ => rfl

/-- An instruction that does not name HL leaves it as it is. -/
theorem hl_effect {i : Instr} (h : i.namesHl = false) (taken : Bool) :
    (i.effect taken m).hl = m.hl := by
  -- the machine is itself with HL replaced by what HL holds
  have hsame := effect_withHl m m.hl h taken
  rw [withHl_hl] at hsame
  rw [hsame, hl_withHl]

/-! ## Two runs -/

theorem execute_withHl {d : Decoded} (h : d.instr.namesHl = false) :
    (m.withHl w).execute d = (m.execute d).withHl w ∧ (m.execute d).hl = m.hl := by
  have hfetch : (m.withHl w).fetch d = (m.fetch d).withHl w := rfl
  refine ⟨?_, hl_effect (m.fetch d) h _⟩
  rw [execute, hfetch, taken_withHl _ w h, effect_withHl _ w h]
  rfl

variable {m}

/-- The instruction of an opcode that a prefix does not change names HL only if it is
    EX DE,HL or EXX. -/
theorem namesHl_current (haffects : Decode.indexAffects (m.mem.get m.pc) = false)
    (hop : m.mem.get m.pc ∉ [0xEB, 0xD9, 0xDD, 0xFD, 0xED]) :
    m.current.instr.namesHl = false := by
  simp only [List.mem_cons, List.not_mem_nil, or_false, not_or] at hop
  obtain ⟨hex, hexx, hdd, hfd, hed⟩ := hop
  have hcb : m.mem.get m.pc ≠ 0xCB := Decode.ne_cb_of_unaffected haffects
  have hidle : ¬Decode.Idles (m.mem.get m.pc) := by
    rintro (h | h | h)
    · exact hdd h
    · exact hfd h
    · exact hed h
  have hencoding : m.encoding = ⟨.main none, m.mem.get m.pc, m.mem.get (m.pc + 1),
      m.mem.get (m.pc + 2)⟩ := Encoding.ofBytes_main ⟨hcb, hidle⟩ _ _ _
  rw [current_eq_withBytes, Instr.namesHl_withBytes, template, hencoding,
    Page.namesHl_template hcb hidle, haffects]
  simp [hex, hexx]

/-- At an opcode that a prefix does not change, other than EX DE,HL, EXX and the prefix bytes,
    two machines that differ in HL alone execute the same instruction and differ in HL alone
    afterwards: the T-states, all other registers, the flags, memory, ports and the program
    counter are the same, and HL holds in each what it held before.  A step of them is such
    an execution, or idling in HALT, of which the same holds. -/
theorem tryStep_withHl (m : Machine)
    (haffects : Decode.indexAffects (m.mem.get m.pc) = false)
    (hop : m.mem.get m.pc ∉ [0xEB, 0xD9, 0xDD, 0xFD, 0xED]) (v : Word) :
    (m.withHl v).execute (m.withHl v).current = (m.execute m.current).withHl v ∧
      (m.execute m.current).hl = m.hl ∧
      (m.withHl v).tryStep = (m.tryStep.1.withHl v, m.tryStep.2) ∧
      m.tryStep.1.hl = m.hl := by
  -- HL holds no byte of the code, so both decode the same instruction
  have hcurrent : (m.withHl v).current = m.current := rfl
  obtain ⟨hexecute, hhl⟩ := execute_withHl m v (namesHl_current haffects hop)
  refine ⟨hexecute, hhl, ?_, ?_⟩
  · have hfault : (m.withHl v).fault? = m.fault? := rfl
    have hstep : (m.withHl v).step = m.step.withHl v := by
      cases h : m.halted with
      | true => rw [step_of_halted h, step_of_halted (m := m.withHl v) h]; rfl
      | false => rw [step_of_running h, step_of_running (m := m.withHl v) h, hcurrent, hexecute]
    rw [tryStep, tryStep, hfault, hstep]
    rfl
  · show m.step.hl = m.hl
    cases h : m.halted with
    | true => rw [step_of_halted h]; rfl
    | false => rw [step_of_running h, hhl]

/-- CALL 1234H across the top of memory. -/
theorem tryStep_withHl_atCode_call :
    let m := atCode 0xFFFE [0xCD, 0x34, 0x12]
    Decode.indexAffects (m.mem.get m.pc) = false ∧
      m.mem.get m.pc ∉ [0xEB, 0xD9, 0xDD, 0xFD, 0xED] ∧
      (m.withHl 0x5678).tryStep.2 = .ok 17 ∧ (m.withHl 0x5678).tryStep.1.pc = 0x1234 ∧
      (m.withHl 0x5678).tryStep.1.hl = 0x5678 ∧ m.tryStep.1.hl = 0xFFFF := by
  intro m
  have hop : m.mem.get m.pc = 0xCD := by
    simp [m, atCode, pc, Space.load, Space.get_set]
  have hcurrent : m.current = ⟨.call none 0x1234, 3, false⟩ := by
    simp [m, current, atCode, pc, Space.load, Space.get_set]
    rfl
  have haffects : Decode.indexAffects (m.mem.get m.pc) = false := by
    rw [hop]
    decide
  have hplain : m.mem.get m.pc ∉ [0xEB, 0xD9, 0xDD, 0xFD, 0xED] := by
    rw [hop]
    decide
  obtain ⟨-, -, htry, hhl⟩ := tryStep_withHl m haffects hplain 0x5678
  -- of any machine and any report, because the memory of this one is not to be evaluated
  have hcall (k : Machine) (hrunning : k.halted = false)
      (hk : k.current = ⟨.call none 0x1234, 3, false⟩) :
      k.tryStep.2 = .ok 17 ∧ k.tryStep.1.pc = 0x1234 := by
    simp only [tryStep, fault?, step_of_running hrunning, hk, hrunning]
    exact ⟨rfl, rfl⟩
  obtain ⟨hreport, htarget⟩ := hcall m rfl hcurrent
  have hpower : m.hl = 0xFFFF := by
    show Word.ofBytes 0xFF 0xFF = 0xFFFF
    decide
  have hparts {r : Machine × Except Fault Nat} {k : Machine} {e : Except Fault Nat}
      (hr : r = (k, e)) : r.1 = k ∧ r.2 = e := by
    rw [hr]
    exact ⟨rfl, rfl⟩
  obtain ⟨hapart, hsame⟩ := hparts htry
  refine ⟨haffects, hplain, hsame.trans hreport, ?_, ?_, hhl.trans hpower⟩
  · rw [hapart, pc_withHl, htarget]
  · rw [hapart, hl_withHl]

end Machine

end Z80
