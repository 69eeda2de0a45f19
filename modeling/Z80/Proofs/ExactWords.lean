/-
  Z80.Proofs.ExactWords

  The 16-bit sums and differences and the integers.

  As for bytes, a sum or difference of words has three exact results: of the words as
  numbers from 0 on, of the words in two's complement, and of their low twelve bits.  F
  says whether each of them fits (`Exact.wordFlags`).  ADD, ADC and SBC of pairs compute
  the word and F from bits instead (`Machine.effect_wordOp`).  The main statement is
  `step_exactWords`: which bytes name which pairs, and what a step leaves of the machine.
-/

import Z80.Proofs.ExactArithmetic
import Z80.Proofs.FlagPreservation

namespace Z80

/-! ## Words as integers -/

namespace Word

/-- Bit `i`, counting from the least significant. -/
def bit (w : Word) (i : Nat) : Bool :=
  w.toNat.testBit i

/-- The number that a word stands for in two's complement. -/
def signed (w : Word) : Int :=
  if w.toNat < 32768 then w.toNat else w.toNat - 65536

/-- The word congruent to an integer modulo 2^16. -/
def ofInt (i : Int) : Word :=
  (i % 65536).toNat.toUInt16

theorem toNat_ofInt (i : Int) : ((ofInt i).toNat : Int) = i % 65536 := by
  have : (ofInt i).toNat = (i % 65536).toNat % 65536 := rfl
  omega

theorem bit_fifteen (w : Word) : w.bit 15 = decide (32768 ≤ w.toNat) := by
  have := w.toNat_lt
  rw [bit, Nat.testBit_eq_decide_div_mod_eq, decide_eq_decide]
  omega

theorem bit_xor (a b : Word) (i : Nat) : (a ^^^ b).bit i = (a.bit i ^^ b.bit i) := by
  simp [bit, UInt16.toNat_xor]

theorem bit_and (a b : Word) (i : Nat) : (a &&& b).bit i = (a.bit i && b.bit i) := by
  simp [bit, UInt16.toNat_and]

/-- The high byte holds the bits from 8 on. -/
theorem bit_hi (w : Word) (i : Nat) : w.hi.bit i = w.bit (i + 8) := by
  rw [Byte.bit, bit, toNat_hi, show 256 = 2 ^ 8 from rfl, Nat.testBit_div_two_pow]

end Word

theorem Bool.toNat_toUInt16 (b : Bool) : b.toUInt16.toNat = b.toNat := by
  cases b <;> rfl

/-! ## Exact results -/

namespace Exact

/-- A sum of words with a carry. -/
def wordSum (a b : Word) (carry : Bool) : Exact where
  unsigned := a.toNat + b.toNat + carry.toNat
  signed := a.signed + b.signed + carry.toNat
  low := a.toNat % 4096 + b.toNat % 4096 + carry.toNat

/-- A difference of words less a borrow. -/
def wordDifference (a b : Word) (borrow : Bool) : Exact where
  unsigned := a.toNat - b.toNat - borrow.toNat
  signed := a.signed - b.signed - borrow.toNat
  low := (a.toNat % 4096 : Nat) - (b.toNat % 4096 : Nat) - borrow.toNat

/-- The result modulo 2^16. -/
def word (e : Exact) : Word :=
  .ofInt e.unsigned

/-- F after a sum of words, or after a difference if it `subtracts`. -/
def wordFlags (e : Exact) (subtracts : Bool) : Flags where
  s := e.word.bit 15
  z := e.word = 0
  y := e.word.bit 13
  h := ¬(0 ≤ e.low ∧ e.low ≤ 4095)
  x := e.word.bit 11
  pv := ¬(-32768 ≤ e.signed ∧ e.signed ≤ 32767)
  n := subtracts
  c := ¬(0 ≤ e.unsigned ∧ e.unsigned ≤ 65535)

end Exact

/-- The operations on register pairs. -/
inductive WordOp where
  | add | adc | sbc
  deriving DecidableEq, Repr

/-- The word and F after an operation by exact arithmetic, with `f` before it.  ADD takes
    no carry and keeps S, Z and P/V. -/
def WordOp.exact (op : WordOp) (a b : Word) (f : Flags) : Word × Flags :=
  match op with
  | add =>
    let e := Exact.wordSum a b false
    (e.word, { e.wordFlags false with s := f.s, z := f.z, pv := f.pv })
  | adc => ((Exact.wordSum a b f.c).word, (Exact.wordSum a b f.c).wordFlags false)
  | sbc => ((Exact.wordDifference a b f.c).word, (Exact.wordDifference a b f.c).wordFlags true)

/-- The operation of an opcode on register pairs with its destination and source.  Behind
    DD and FD the index register takes the place of HL on both sides. -/
def Page.wordOp? (p : Page) (op : Byte) : Option (WordOp × Pair × Pair) :=
  match p with
  | main x? =>
    match op with
    | 0x09 => some (.add, .hlOr x?, .bank .bc)
    | 0x19 => some (.add, .hlOr x?, .bank .de)
    | 0x29 => some (.add, .hlOr x?, .hlOr x?)
    | 0x39 => some (.add, .hlOr x?, .sp)
    | _ => none
  | ed =>
    match op with
    | 0x42 => some (.sbc, .bank .hl, .bank .bc)
    | 0x52 => some (.sbc, .bank .hl, .bank .de)
    | 0x62 => some (.sbc, .bank .hl, .bank .hl)
    | 0x72 => some (.sbc, .bank .hl, .sp)
    | 0x4A => some (.adc, .bank .hl, .bank .bc)
    | 0x5A => some (.adc, .bank .hl, .bank .de)
    | 0x6A => some (.adc, .bank .hl, .bank .hl)
    | 0x7A => some (.adc, .bank .hl, .sp)
    | _ => none
  | _ => none

/-! ## The 16-bit arithmetic -/

theorem toNat_word_sum (a b : Word) (carry : Bool) :
    ((Exact.wordSum a b carry).word.toNat : Int) = (a.toNat + b.toNat + carry.toNat) % 65536 :=
  Word.toNat_ofInt _

theorem toNat_word_difference (a b : Word) (borrow : Bool) :
    ((Exact.wordDifference a b borrow).word.toNat : Int) =
      (a.toNat - b.toNat - borrow.toNat) % 65536 :=
  Word.toNat_ofInt _

theorem adcWord_eq_exact (a b : Word) (carry : Bool) :
    adcWord a b carry = (Exact.wordSum a b carry).word := by
  apply UInt16.toNat_inj.mp
  have hword := toNat_word_sum a b carry
  have hsum : (adcWord a b carry).toNat = ((a.toNat + b.toNat) % 65536 + carry.toNat) % 65536 := by
    rw [adcWord, UInt16.toNat_add, UInt16.toNat_add, Bool.toNat_toUInt16]
  omega

theorem sbcWord_eq_exact (a b : Word) (borrow : Bool) :
    sbcWord a b borrow = (Exact.wordDifference a b borrow).word := by
  apply UInt16.toNat_inj.mp
  have := a.toNat_lt
  have := b.toNat_lt
  have := borrow.toNat_le
  have hword := toNat_word_difference a b borrow
  have hdifference : (sbcWord a b borrow).toNat =
      (65536 - borrow.toNat + (65536 - b.toNat + a.toNat) % 65536) % 65536 := by
    rw [sbcWord, UInt16.toNat_sub, UInt16.toNat_sub, Bool.toNat_toUInt16]
  omega

/-- A sum of words overflows in two's complement where both operands have a sign that the
    result has not. -/
theorem overflow_adcWord (a b : Word) (carry : Bool) :
    ((a ^^^ adcWord a b carry) &&& (b ^^^ adcWord a b carry)).hi.bit 7 =
      decide (¬(-32768 ≤ (Exact.wordSum a b carry).signed ∧
        (Exact.wordSum a b carry).signed ≤ 32767)) := by
  have := a.toNat_lt
  have := b.toNat_lt
  have := carry.toNat_le
  have hword := toNat_word_sum a b carry
  rw [← adcWord_eq_exact] at hword
  rw [Word.bit_hi, Word.bit_and, Word.bit_xor, Word.bit_xor, Word.bit_fifteen, Word.bit_fifteen,
    Word.bit_fifteen]
  simp only [Bool.and_eq_decide, bne_iff_ne, ne_eq, decide_eq_decide]
  dsimp only [Exact.wordSum, Word.signed]
  omega

/-- A difference of words overflows where the operands differ in sign and the result has
    not that of the first. -/
theorem overflow_sbcWord (a b : Word) (borrow : Bool) :
    ((a ^^^ b) &&& (a ^^^ sbcWord a b borrow)).hi.bit 7 =
      decide (¬(-32768 ≤ (Exact.wordDifference a b borrow).signed ∧
        (Exact.wordDifference a b borrow).signed ≤ 32767)) := by
  have := a.toNat_lt
  have := b.toNat_lt
  have := borrow.toNat_le
  have hword := toNat_word_difference a b borrow
  rw [← sbcWord_eq_exact] at hword
  rw [Word.bit_hi, Word.bit_and, Word.bit_xor, Word.bit_xor, Word.bit_fifteen, Word.bit_fifteen,
    Word.bit_fifteen]
  simp only [Bool.and_eq_decide, bne_iff_ne, ne_eq, decide_eq_decide]
  dsimp only [Exact.wordDifference, Word.signed]
  omega

/-- S, Z, Y and X of a result word are its bits. -/
theorem wordResultFlags_eq (r : Word) : wordResultFlags r =
    { s := r.bit 15, z := decide (r = 0), y := r.bit 13, x := r.bit 11 } := by
  rw [wordResultFlags, Word.bit_hi, Word.bit_hi, Word.bit_hi]
  rfl

theorem adcWordFlags_eq_exact (a b : Word) (carry : Bool) :
    adcWordFlags a b carry = (Exact.wordSum a b carry).wordFlags false := by
  have hhalf : decide (0x0FFF < a.toNat % 0x1000 + b.toNat % 0x1000 + carry.toNat) =
      decide (¬(0 ≤ (Exact.wordSum a b carry).low ∧ (Exact.wordSum a b carry).low ≤ 4095)) := by
    rw [decide_eq_decide]
    dsimp only [Exact.wordSum]
    omega
  have hcarry : decide (0xFFFF < a.toNat + b.toNat + carry.toNat) =
      decide (¬(0 ≤ (Exact.wordSum a b carry).unsigned ∧
        (Exact.wordSum a b carry).unsigned ≤ 65535)) := by
    rw [decide_eq_decide]
    dsimp only [Exact.wordSum]
    omega
  rw [adcWordFlags, overflow_adcWord, hhalf, hcarry, wordResultFlags_eq, adcWord_eq_exact]
  rfl

theorem sbcWordFlags_eq_exact (a b : Word) (borrow : Bool) :
    sbcWordFlags a b borrow = (Exact.wordDifference a b borrow).wordFlags true := by
  have := a.toNat_lt
  have hhalf : decide (a.toNat % 0x1000 < b.toNat % 0x1000 + borrow.toNat) =
      decide (¬(0 ≤ (Exact.wordDifference a b borrow).low ∧
        (Exact.wordDifference a b borrow).low ≤ 4095)) := by
    rw [decide_eq_decide]
    dsimp only [Exact.wordDifference]
    omega
  have hborrow : decide (a.toNat < b.toNat + borrow.toNat) =
      decide (¬(0 ≤ (Exact.wordDifference a b borrow).unsigned ∧
        (Exact.wordDifference a b borrow).unsigned ≤ 65535)) := by
    rw [decide_eq_decide]
    dsimp only [Exact.wordDifference]
    omega
  rw [sbcWordFlags, overflow_sbcWord, hhalf, hborrow, wordResultFlags_eq, sbcWord_eq_exact]
  rfl

/-- A sum without a carry is one with no carry in. -/
theorem add_eq_adcWord (a b : Word) : a + b = adcWord a b false :=
  (UInt16.add_zero (a + b)).symm

theorem addWordFlags_eq_exact (a b : Word) (f : Flags) : addWordFlags a b f =
    { (Exact.wordSum a b false).wordFlags false with s := f.s, z := f.z, pv := f.pv } := by
  have hadd : addWordFlags a b f =
      { adcWordFlags a b false with s := f.s, z := f.z, pv := f.pv } := by
    rw [addWordFlags, add_eq_adcWord]
    rfl
  rw [hadd, adcWordFlags_eq_exact]

/-! ## Instructions -/

/-- The operation of an instruction on register pairs with its destination and source. -/
def Instr.wordOp? : Instr → Option (WordOp × Pair × Pair)
  | addPair dst src => some (.add, dst, src)
  | adcHl src => some (.adc, .bank .hl, src)
  | sbcHl src => some (.sbc, .bank .hl, src)
  | _ => none

theorem Instr.wordOp?_withBytes (i : Instr) (n₁ n₂ : Byte) :
    (i.withBytes n₁ n₂).wordOp? = i.wordOp? := by
  cases i with
  | unimplemented opcode => cases opcode <;> rfl
  | _ => rfl

/-- The decoder has the listed operations. -/
theorem Page.template_wordOp? (p : Page) (op : Byte) :
    (p.template op).instr.wordOp? = p.wordOp? op := by
  revert p op
  exact forall_opcode (by decide +kernel)

/-- The destination of an operation is HL or an index register. -/
theorem Page.exists_destination {p : Page} {op : Byte} {word : WordOp} {dst src : Pair}
    (h : p.wordOp? op = some (word, dst, src)) : ∃ x?, dst = .hlOr x? := by
  have hdst (p : Page) (op : Byte) : (p.wordOp? op).all fun r =>
      r.2.1 = .hlOr none ∨ r.2.1 = .hlOr (some .ix) ∨ r.2.1 = .hlOr (some .iy) := by
    revert p op
    exact forall_opcode (by decide +kernel)
  have := hdst p op
  rw [h, Option.all_some, decide_eq_true_eq] at this
  obtain hhl | hix | hiy := this
  · exact ⟨_, hhl⟩
  · exact ⟨_, hix⟩
  · exact ⟨_, hiy⟩

namespace Machine

theorem current_wordOp? (m : Machine) :
    m.current.instr.wordOp? = m.encoding.page.wordOp? m.encoding.op := by
  rw [current_eq_withBytes]
  exact (Instr.wordOp?_withBytes _ _ _).trans (Page.template_wordOp? _ _)

/-- An operation on pairs writes its destination and F as exact arithmetic has them, and
    nothing else. -/
theorem effect_wordOp {m : Machine} {i : Instr} {op : WordOp} {dst src : Pair}
    (h : i.wordOp? = some (op, dst, src)) (taken : Bool) :
    i.effect taken m =
      (m.setFlags (op.exact (m.pair dst) (m.pair src) m.flags).2).setPair dst
        (op.exact (m.pair dst) (m.pair src) m.flags).1 := by
  cases i with
  | addPair dst src =>
    simp only [Instr.wordOp?, Option.some.injEq, Prod.mk.injEq] at h
    obtain ⟨rfl, rfl, rfl⟩ := h
    rw [Instr.effect, addWordFlags_eq_exact, add_eq_adcWord, adcWord_eq_exact]
    rfl
  | adcHl src =>
    simp only [Instr.wordOp?, Option.some.injEq, Prod.mk.injEq] at h
    obtain ⟨rfl, rfl, rfl⟩ := h
    rw [Instr.effect, adcWordFlags_eq_exact, adcWord_eq_exact]
    rfl
  | sbcHl src =>
    simp only [Instr.wordOp?, Option.some.injEq, Prod.mk.injEq] at h
    obtain ⟨rfl, rfl, rfl⟩ := h
    rw [Instr.effect, sbcWordFlags_eq_exact, sbcWord_eq_exact]
    rfl
  | _ => cases h

/-- A write to HL or an index register leaves the registers outside the main bank, IX and
    IY. -/
theorem regs_setPair_hlOr (m : Machine) (x? : Option Index) (w : Word) :
    (m.setPair (.hlOr x?) w).regs = { m.regs with
      main := (m.setPair (.hlOr x?) w).regs.main
      ix := (m.setPair (.hlOr x?) w).regs.ix
      iy := (m.setPair (.hlOr x?) w).regs.iy } := by
  cases x? with
  | none => rfl
  | some x => cases x <;> rfl

theorem a_setPair_hlOr (m : Machine) (x? : Option Index) (w : Word) :
    (m.setPair (.hlOr x?) w).a = m.a := by
  cases x? with
  | none => rfl
  | some x => cases x <;> rfl

/-- A step of the operation is its fetch and the write to its destination and F. -/
theorem step_wordOp {m : Machine} (hrun : m.halted = false) {op : WordOp} {dst src : Pair}
    (hop : m.current.instr.wordOp? = some (op, dst, src)) :
    m.step = { ((m.fetch m.current).setFlags (op.exact (m.pair dst) (m.pair src) m.flags).2).setPair
        dst (op.exact (m.pair dst) (m.pair src) m.flags).1 with cycles := m.step.cycles } := by
  rw [step_of_running hrun, execute, effect_wordOp hop, pair_fetch, pair_fetch]
  rfl

/-- ADD, ADC and SBC of register pairs compute what exact integer arithmetic says.  The
    bytes at the program counter name the operation and its pairs; the destination holds
    the exact word and F the exact flags, no other pair and not A changes, and of the other
    registers only the program counter and R move, as the fetch moves them. -/
theorem step_exactWords {m : Machine} (hrun : m.halted = false) {op : WordOp} {dst src : Pair}
    (hop : m.encoding.page.wordOp? m.encoding.op = some (op, dst, src)) :
    let r := op.exact (m.pair dst) (m.pair src) m.flags
    m.step.pair dst = r.1 ∧
    m.step.flags = r.2 ∧
    (∀ rr, rr ≠ dst → rr ≠ .bank .af → m.step.pair rr = m.pair rr) ∧
    m.step.a = m.a ∧
    m.step.regs = { (m.fetch m.current).regs with
      main := m.step.regs.main, ix := m.step.regs.ix, iy := m.step.regs.iy } ∧
    m.step.im = m.im ∧ m.step.halted = m.halted ∧
    m.step.mem = m.mem ∧ m.step.ports = m.ports := by
  intro r
  obtain ⟨x?, rfl⟩ := Page.exists_destination hop
  have hstep := step_wordOp hrun ((current_wordOp? m).trans hop)
  have hpair (rr : Pair) : m.step.pair rr =
      (((m.fetch m.current).setFlags r.2).setPair (.hlOr x?) r.1).pair rr := by
    rw [hstep]
    cases rr <;> rfl
  have hflags : Pair.hlOr x? ≠ .bank .af := by
    cases x? <;> simp [Pair.hlOr]
  refine ⟨?_, ?_, ?_, ?_, ?_, ?_, ?_, ?_, ?_⟩
  · rw [hpair, pair_setPair, if_pos rfl]
  · rw [hstep]
    exact flags_setPair _ hflags r.1
  · intro rr hne hf
    rw [hpair, pair_setPair, if_neg hne, pair_setFlags _ _ hf, pair_fetch]
  · rw [hstep]
    exact a_setPair_hlOr _ x? r.1
  · rw [hstep]
    exact regs_setPair_hlOr _ x? r.1
  · rw [hstep]
    cases x? <;> rfl
  · rw [hstep]
    cases x? <;> rfl
  · rw [hstep]
    exact mem_setPair _ _ _
  · rw [hstep]
    exact ports_setPair _ _ _

/-- SBC HL,SP of 8FFFh and 0FFFh with a borrow, which alone makes the difference overflow
    and borrow into bit 11.  The instruction lies around the top of memory. -/
theorem step_exactWords_atCode :
    let m := (((atCode 0xFFFF [0xED, 0x72]).setPair (.bank .hl) 0x8FFF).setPair .sp 0x0FFF)
    m.halted = false ∧
      m.encoding.page.wordOp? m.encoding.op = some (.sbc, .bank .hl, .sp) ∧
      m.step.pair (.bank .hl) = 0x7FFF ∧
      m.step.flags = { y := true, h := true, x := true, pv := true, n := true } ∧
      m.step.pair .sp = 0x0FFF := by
  intro m
  have hop : m.encoding.page.wordOp? m.encoding.op = some (.sbc, .bank .hl, .sp) := by
    have hcode : m.encoding = ⟨.ed, 0x72, 0, 0⟩ := by
      simp [m, atCode, encoding, pc, setPair, Space.load, Space.get_set, Encoding.ofBytes]
    rw [hcode]
    rfl
  obtain ⟨hhl, hf, hpair, -⟩ := step_exactWords rfl hop
  refine ⟨rfl, hop, hhl.trans ?_, hf.trans ?_, ?_⟩
  · decide
  · decide
  · exact hpair .sp (by decide) (by decide)

end Machine

end Z80
