/-
  Z80.Proofs.FlagPreservation

  The flags that an instruction leaves alone.

  The opcodes that touch F are listed by page with the flags that they keep
  (`Page.keptFlags`); every other opcode keeps all eight.  The main statement is
  `flags_step`: after one step the kept flags are what they were before it, for every
  machine, whatever the instruction does to the others.
-/

import Z80.Proofs.Encoding

namespace Z80

/-! ## The list -/

/-- The eight flags. -/
def Flag.all : List Flag :=
  [.s, .z, .y, .h, .x, .pv, .n, .c]

/-- The flags that an opcode leaves as they are.  A DD or FD byte in front changes
    nothing about it. -/
def Page.keptFlags (p : Page) (op : Byte) : List Flag :=
  match p with
  | main _ =>
    match op with
    -- EX AF,AF', DAA and POP AF
    | 0x08 | 0x27 | 0xF1 => []
    -- RLCA, RRCA, RLA, RRA, SCF and CCF
    | 0x07 | 0x0F | 0x17 | 0x1F | 0x37 | 0x3F => [.s, .z, .pv]
    -- CPL
    | 0x2F => [.s, .z, .pv, .c]
    | _ =>
      -- INC r and DEC r
      if op &&& 0xC7 = 0x04 ∨ op &&& 0xC7 = 0x05 then [.c]
      -- ADD HL,rr
      else if op &&& 0xCF = 0x09 then [.s, .z, .pv]
      -- the operations of the accumulator with an operand or an immediate byte
      else if op &&& 0xC0 = 0x80 ∨ op &&& 0xC7 = 0xC6 then []
      else Flag.all
  -- rotations and BIT; 30 to 37 have no instruction
  | cb | indexCb _ =>
    if op &&& 0xC0 = 0x40 then [.c]
    else if op &&& 0xC0 = 0x00 ∧ op &&& 0xF8 ≠ 0x30 then []
    else Flag.all
  | ed =>
    match op with
    -- NEG
    | 0x44 => []
    -- LD A,I and LD A,R
    | 0x57 | 0x5F => [.c]
    -- RRD and RLD
    | 0x67 | 0x6F => [.c]
    -- LDI, LDD, LDIR and LDDR
    | 0xA0 | 0xA8 | 0xB0 | 0xB8 => [.s, .z, .c]
    -- CPI, CPD, CPIR and CPDR
    | 0xA1 | 0xA9 | 0xB1 | 0xB9 => [.c]
    -- INI, IND, INIR, INDR, OUTI, OUTD, OTIR and OTDR
    | 0xA2 | 0xAA | 0xB2 | 0xBA | 0xA3 | 0xAB | 0xB3 | 0xBB => []
    | _ =>
      -- IN r,(C)
      if op &&& 0xC7 = 0x40 ∧ op ≠ 0x70 then [.c]
      -- SBC HL,rr and ADC HL,rr
      else if op &&& 0xC7 = 0x42 then []
      else Flag.all
  | idle => Flag.all

/-! ## Flags that stay -/

namespace Flags

/-- The flags `g` are those of `f` as far as `kept` goes. -/
def Keeps (kept : List Flag) (f g : Flags) : Prop :=
  ∀ flag ∈ kept, g.get flag = f.get flag

variable {kept : List Flag} {f g : Flags}

theorem keeps_of_eq (h : g = f) : Keeps kept f g :=
  fun flag _ => congrArg (·.get flag) h

theorem keeps_nil : Keeps [] f g :=
  fun _ h => absurd h List.not_mem_nil

/-- Flags that all stay are the same flags. -/
theorem eq_of_keeps_all (hkeeps : Keeps Flag.all f g) : g = f := by
  have hflag (flag : Flag) : g.get flag = f.get flag :=
    hkeeps flag (by cases flag <;> decide)
  obtain ⟨s, z, y, h, x, pv, n, c⟩ := f
  obtain ⟨s', z', y', h', x', pv', n', c'⟩ := g
  have hs : s' = s := hflag .s
  have hz : z' = z := hflag .z
  have hy : y' = y := hflag .y
  have hh : h' = h := hflag .h
  have hx : x' = x := hflag .x
  have hpv : pv' = pv := hflag .pv
  have hn : n' = n := hflag .n
  have hc : c' = c := hflag .c
  rw [hs, hz, hy, hh, hx, hpv, hn, hc]

theorem keeps_carry (hc : g.c = f.c) : Keeps [.c] f g := by
  intro flag hflag
  rw [List.mem_singleton.mp hflag]
  exact hc

theorem keeps_result (hs : g.s = f.s) (hz : g.z = f.z) (hpv : g.pv = f.pv) :
    Keeps [.s, .z, .pv] f g := by
  simp [Keeps, get, hs, hz, hpv]

end Flags

/-! ## Instructions -/

/-- The flags that stay when an operand is written: F is an operand as well. -/
def Operand.keptFlags : Operand → List Flag
  | reg .f => []
  | _ => Flag.all

/-- The flags that stay when a register pair is written. -/
def Pair.keptFlags : Pair → List Flag
  | bank .af => []
  | _ => Flag.all

namespace Instr

/-- The flags that an instruction leaves as they are. -/
def keptFlags : Instr → List Flag
  | ld dst _ | ldByte dst _ => dst.keptFlags
  | ldWord rr _ | ldPairFrom rr _ | pop rr | exSp rr | incPair rr | decPair rr => rr.keptFlags
  | res _ target copy | set _ target copy => if copy = some .f then [] else target.keptFlags
  | inc _ | dec _ | bit _ _ | rld | rrd | inC _ | ldAI | ldAR | block .compare _ _ => [.c]
  | rotA _ | scf | ccf => [.s, .z, .pv]
  | addPair dst _ => if dst = .bank .af then [] else [.s, .z, .pv]
  | cpl => [.s, .z, .pv, .c]
  | block .load _ _ => [.s, .z, .c]
  | exAf | daa | neg | alu _ _ | aluByte _ _ | rot _ _ _ | adcHl _ | sbcHl _ => []
  | block .input _ _ | block .output _ _ => []
  | _ => Flag.all

theorem keptFlags_withBytes (i : Instr) (n₁ n₂ : Byte) :
    (i.withBytes n₁ n₂).keptFlags = i.keptFlags := by
  cases i with
  | ld dst src => cases dst <;> rfl
  | ldByte dst n => cases dst <;> rfl
  | res n target copy => cases target <;> rfl
  | set n target copy => cases target <;> rfl
  | unimplemented opcode => cases opcode <;> rfl
  | _ => rfl

end Instr

/-- The decoder keeps the listed flags. -/
theorem Page.template_keptFlags (p : Page) (op : Byte) :
    (p.template op).instr.keptFlags = p.keptFlags op := by
  revert p op
  exact forall_opcode (by decide +kernel)

namespace Machine

variable (m : Machine)

theorem keeps_write (o : Operand) (v : Byte) :
    m.flags.Keeps o.keptFlags (m.write o v).flags := by
  cases o with
  | reg r =>
    cases r with
    | f => exact Flags.keeps_nil
    | _ => exact Flags.keeps_of_eq rfl
  | high x => exact Flags.keeps_of_eq (by cases x <;> rfl)
  | low x => exact Flags.keeps_of_eq (by cases x <;> rfl)
  | hl => exact Flags.keeps_of_eq rfl
  | indexed x d => exact Flags.keeps_of_eq rfl

theorem flags_setPair {rr : Pair} (h : rr ≠ .bank .af) (w : Word) :
    (m.setPair rr w).flags = m.flags := by
  cases rr with
  | bank rr =>
    cases rr with
    | af => exact absurd rfl h
    | _ => rfl
  | sp => rfl
  | index x => cases x <;> rfl

theorem keeps_setPair (rr : Pair) (w : Word) :
    m.flags.Keeps rr.keptFlags (m.setPair rr w).flags := by
  by_cases h : rr = .bank .af
  · rw [h]
    exact Flags.keeps_nil
  · exact Flags.keeps_of_eq (flags_setPair m h w)

theorem flags_copyTo {r? : Option Reg8} (h : r? ≠ some .f) (v : Byte) :
    (m.copyTo r? v).flags = m.flags := by
  cases r? with
  | none => rfl
  | some r =>
    cases r with
    | f => exact absurd rfl h
    | _ => rfl

/-- A result in an operand and, with it, in a register. -/
theorem keeps_copyTo (o : Operand) (r? : Option Reg8) (v : Byte) :
    m.flags.Keeps (if r? = some .f then [] else o.keptFlags) ((m.write o v).copyTo r? v).flags := by
  by_cases h : r? = some .f
  · rw [if_pos h]
    exact Flags.keeps_nil
  · rw [if_neg h, flags_copyTo _ h]
    exact keeps_write m o v

@[simp] theorem flags_jumpIf (taken : Bool) (w : Word) : (m.jumpIf taken w).flags = m.flags := by
  cases taken <;> rfl

@[simp] theorem flags_callIf (taken : Bool) (w : Word) : (m.callIf taken w).flags = m.flags := by
  cases taken <;> rfl

@[simp] theorem flags_returnIf (taken : Bool) : (m.returnIf taken).flags = m.flags := by
  cases taken <;> rfl

theorem keeps_block (op : BlockOp) (dir : Direction) (repeats : Bool) :
    m.flags.Keeps (Instr.block op dir repeats).keptFlags (m.block op dir).flags := by
  cases op with
  | load =>
    have hflags : (m.block .load dir).flags =
        blockLoadFlags m.a (m.mem.get m.hl) (m.bc - 1) m.flags := rfl
    rw [hflags]
    -- S, Z and C are copied, so each flag of the list is the old one
    intro flag hflag
    simp only [Instr.keptFlags, List.mem_cons, List.not_mem_nil, or_false] at hflag
    obtain rfl | rfl | rfl := hflag <;> rfl
  | compare => exact Flags.keeps_carry rfl
  | input => exact Flags.keeps_nil
  | output => exact Flags.keeps_nil

/-- An instruction keeps its flags, whether or not its transfer happens. -/
theorem keeps_effect (i : Instr) (taken : Bool) :
    m.flags.Keeps i.keptFlags (i.effect taken m).flags := by
  cases i with
  | ld dst src => exact keeps_write m dst _
  | ldByte dst n => exact keeps_write m dst n
  | ldWord rr nn => exact keeps_setPair m rr nn
  | ldPairFrom rr nn => exact keeps_setPair m rr _
  | pop rr => exact keeps_setPair m.drop rr _
  | exSp rr => exact keeps_setPair (m.storeWord m.regs.sp (m.pair rr)) rr _
  | incPair rr => exact keeps_setPair m rr _
  | decPair rr => exact keeps_setPair m rr _
  | res n target copy => exact keeps_copyTo m target copy _
  | set n target copy => exact keeps_copyTo m target copy _
  | inc dst => exact Flags.keeps_carry rfl
  | dec dst => exact Flags.keeps_carry rfl
  | bit n src => exact Flags.keeps_carry rfl
  | rld => exact Flags.keeps_carry rfl
  | rrd => exact Flags.keeps_carry rfl
  | inC r => exact Flags.keeps_carry rfl
  | ldAI => exact Flags.keeps_carry rfl
  | ldAR => exact Flags.keeps_carry rfl
  | rotA op => exact Flags.keeps_result rfl rfl rfl
  | scf => exact Flags.keeps_result rfl rfl rfl
  | ccf => exact Flags.keeps_result rfl rfl rfl
  | addPair dst src =>
    by_cases h : dst = .bank .af
    · rw [Instr.keptFlags, if_pos h]
      exact Flags.keeps_nil
    · rw [Instr.keptFlags, if_neg h, Instr.effect, flags_setPair _ h]
      exact Flags.keeps_result rfl rfl rfl
  | cpl =>
    intro flag hflag
    simp only [Instr.keptFlags, List.mem_cons, List.not_mem_nil, or_false] at hflag
    obtain rfl | rfl | rfl | rfl := hflag <;> rfl
  | block op dir repeats =>
    rw [Instr.effect, flags_jumpIf]
    exact keeps_block m op dir repeats
  | exAf | daa | neg | alu | aluByte | rot | adcHl | sbcHl => exact Flags.keeps_nil
  | jp cc? nn => exact Flags.keeps_of_eq (flags_jumpIf m taken nn)
  | jr cc? d => exact Flags.keeps_of_eq (flags_jumpIf m taken _)
  | djnz d => exact Flags.keeps_of_eq (flags_jumpIf (m.setReg .b (m.reg .b - 1)) taken _)
  | call cc? nn => exact Flags.keeps_of_eq (flags_callIf m taken nn)
  | ret cc? => exact Flags.keeps_of_eq (flags_returnIf m taken)
  -- the others do not touch F
  | _ => exact Flags.keeps_of_eq rfl

/-! ## One step -/

/-- The flags that the next step leaves as they are. -/
def keptFlags : List Flag :=
  if m.halted then Flag.all else m.encoding.page.keptFlags m.encoding.op

theorem keeps_step : m.flags.Keeps m.keptFlags m.step.flags := by
  cases h : m.halted with
  | true => exact Flags.keeps_of_eq (by rw [step_of_halted h]; rfl)
  | false =>
    have hkept : m.instr.keptFlags = m.keptFlags := by
      rw [keptFlags, h, instr, Instr.keptFlags_withBytes]
      exact Page.template_keptFlags _ _
    rw [step_eq_effect h, ← hkept]
    exact keeps_effect m.fetched m.instr _

/-- After one step the flags that the opcode at the program counter keeps are what they
    were, and F as a whole is what it was for an opcode that is not listed.  A halted
    machine keeps F. -/
theorem flags_step (m : Machine) :
    (∀ flag ∈ m.keptFlags, m.step.flags.get flag = m.flags.get flag) ∧
    (m.keptFlags = Flag.all → m.step.flags = m.flags) := by
  have hkeeps : m.flags.Keeps m.keptFlags m.step.flags := keeps_step m
  refine ⟨hkeeps, fun hall => ?_⟩
  rw [hall] at hkeeps
  exact Flags.eq_of_keeps_all hkeeps

/-- LDI keeps the carry, while it clears the half carry; LD A,n behind a prefix keeps
    all of F. -/
theorem flags_step_atCode :
    (Flag.c ∈ (atCode 0 [0xED, 0xA0]).keptFlags ∧
      (atCode 0 [0xED, 0xA0]).step.flags.c = true ∧
      (atCode 0 [0xED, 0xA0]).step.flags.h = false) ∧
    (atCode 0xFFFF [0xFD, 0x3E, 0x05]).keptFlags = Flag.all ∧
      (atCode 0xFFFF [0xFD, 0x3E, 0x05]).step.flags = Flags.ofByte 0xFF := by
  constructor
  · have hcode : (atCode 0 [0xED, 0xA0]).encoding = ⟨.ed, 0xA0, 0, 0⟩ := by
      simp [atCode, encoding, pc, Space.load, Space.get_set, Encoding.ofBytes]
    have hc : Flag.c ∈ (atCode 0 [0xED, 0xA0]).keptFlags := by
      rw [keptFlags, hcode]
      decide
    refine ⟨hc, (flags_step (atCode 0 [0xED, 0xA0])).1 .c hc, ?_⟩
    rw [step_eq_effect rfl, instr, fetched, template, hcode]
    rfl
  · have hcode : (atCode 0xFFFF [0xFD, 0x3E, 0x05]).encoding =
        ⟨.main (some .iy), 0x3E, 0x05, 0⟩ := by
      simp [atCode, encoding, pc, Space.load, Space.get_set, Encoding.ofBytes,
        Encoding.behindIndex, Index.code]
    have hall : (atCode 0xFFFF [0xFD, 0x3E, 0x05]).keptFlags = Flag.all := by
      rw [keptFlags, hcode]
      decide
    exact ⟨hall, (flags_step (atCode 0xFFFF [0xFD, 0x3E, 0x05])).2 hall⟩

end Machine

end Z80
