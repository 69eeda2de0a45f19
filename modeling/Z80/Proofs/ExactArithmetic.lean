/-
  Z80.Proofs.ExactArithmetic

  The 8-bit arithmetic unit and the integers.

  A sum or difference of bytes has three exact results: of the bytes as numbers from
  0 on, of the bytes in two's complement, and of their low digits.  F says whether
  each of them fits (`Exact.flags`).  The arithmetic unit computes the byte and F
  from bits instead, and its tables hold them: `addFlags_eq_exact`,
  `subFlags_eq_exact` and `logicFlags_eq_exact` say that it is the same F, and
  `effect_exact` says it of the instructions.
-/

import Z80.FlagTables
import Z80.Proofs.Encoding
import Z80.Proofs.Machine

namespace Z80

/-! ## Bytes as integers -/

namespace Byte

/-- The number that a byte stands for in two's complement. -/
def signed (b : Byte) : Int :=
  if b.toNat < 128 then b.toNat else b.toNat - 256

/-- The byte congruent to an integer modulo 256. -/
def ofInt (i : Int) : Byte :=
  (i % 256).toNat.toUInt8

theorem toNat_ofInt (i : Int) : ((ofInt i).toNat : Int) = i % 256 := by
  have : (ofInt i).toNat = (i % 256).toNat % 256 := rfl
  omega

theorem bit_seven (b : Byte) : b.bit 7 = decide (128 ≤ b.toNat) := by
  have := b.toNat_lt
  rw [bit, Nat.testBit_eq_decide_div_mod_eq, decide_eq_decide]
  omega

theorem bit_xor (a b : Byte) (i : Nat) : (a ^^^ b).bit i = (a.bit i ^^ b.bit i) := by
  simp [bit, UInt8.toNat_xor]

theorem bit_and (a b : Byte) (i : Nat) : (a &&& b).bit i = (a.bit i && b.bit i) := by
  simp [bit, UInt8.toNat_and]

theorem toNat_and_lowDigit (b : Byte) : (b &&& 0x0F).toNat = b.toNat % 16 := by
  rw [UInt8.toNat_and]
  exact Nat.and_two_pow_sub_one_eq_mod b.toNat 4

/-- Parity counts the set bits one by one. -/
theorem evenParity_eq_countP (b : Byte) :
    b.evenParity = decide ((List.range 8).countP b.bit % 2 = 0) := by
  revert b
  rw [forall_iff]
  decide +kernel

end Byte

theorem Bool.toNat_toUInt8 (b : Bool) : b.toUInt8.toNat = b.toNat := by
  cases b <;> rfl

/-! ## Exact results -/

/-- The exact results of a sum or difference. -/
structure Exact where
  /-- Of the operands as numbers from 0 on. -/
  unsigned : Int
  /-- Of the operands in two's complement. -/
  signed : Int
  /-- Of the digits below the top one. -/
  low : Int

namespace Exact

/-- A sum with a carry. -/
def sum (a b : Byte) (carry : Bool) : Exact where
  unsigned := a.toNat + b.toNat + carry.toNat
  signed := a.signed + b.signed + carry.toNat
  low := a.toNat % 16 + b.toNat % 16 + carry.toNat

/-- A difference less a borrow. -/
def difference (a b : Byte) (borrow : Bool) : Exact where
  unsigned := a.toNat - b.toNat - borrow.toNat
  signed := a.signed - b.signed - borrow.toNat
  low := (a.toNat % 16 : Nat) - (b.toNat % 16 : Nat) - borrow.toNat

/-- The result modulo 256. -/
def byte (e : Exact) : Byte :=
  .ofInt e.unsigned

/-- F after a sum, or after a difference if it `subtracts`. -/
def flags (e : Exact) (subtracts : Bool) : Flags where
  s := e.byte.bit 7
  z := e.byte = 0
  y := e.byte.bit 5
  h := ¬(0 ≤ e.low ∧ e.low ≤ 15)
  x := e.byte.bit 3
  pv := ¬(-128 ≤ e.signed ∧ e.signed ≤ 127)
  n := subtracts
  c := ¬(0 ≤ e.unsigned ∧ e.unsigned ≤ 255)

end Exact

/-- F after a logical operation: P/V is even parity, and `half` is set by AND only. -/
def exactLogicFlags (r : Byte) (half : Bool) : Flags where
  s := r.bit 7
  z := r = 0
  y := r.bit 5
  h := half
  x := r.bit 3
  pv := (List.range 8).countP r.bit % 2 = 0
  n := false
  c := false

/-- The accumulator and F after an operation by exact arithmetic.  CP shows its
    operand in X and Y; the rest of F is that of the difference. -/
def AluOp.exact (op : AluOp) (a v : Byte) (carry : Bool) : Byte × Flags :=
  match op with
  | add => ((Exact.sum a v false).byte, (Exact.sum a v false).flags false)
  | adc => ((Exact.sum a v carry).byte, (Exact.sum a v carry).flags false)
  | sub => ((Exact.difference a v false).byte, (Exact.difference a v false).flags true)
  | sbc => ((Exact.difference a v carry).byte, (Exact.difference a v carry).flags true)
  | and => (a &&& v, exactLogicFlags (a &&& v) true)
  | xor => (a ^^^ v, exactLogicFlags (a ^^^ v) false)
  | or => (a ||| v, exactLogicFlags (a ||| v) false)
  | cp => (a, { (Exact.difference a v false).flags true with y := v.bit 5, x := v.bit 3 })

/-- The operand that an instruction of the arithmetic unit changes, with its byte and F
    by exact arithmetic. -/
def Instr.result? (m : Machine) : Instr → Option (Operand × Byte × Flags)
  | alu op src => some (.reg .a, op.exact m.a (m.read src) m.flags.c)
  | aluByte op n => some (.reg .a, op.exact m.a n m.flags.c)
  | inc dst =>
    let e := Exact.sum (m.read dst) 1 false
    some (dst, e.byte, { e.flags false with c := m.flags.c })
  | dec dst =>
    let e := Exact.difference (m.read dst) 1 false
    some (dst, e.byte, { e.flags true with c := m.flags.c })
  | neg =>
    let e := Exact.difference 0 m.a false
    some (.reg .a, e.byte, e.flags true)
  | _ => none

/-! ## The arithmetic unit -/

theorem toNat_byte_sum (a b : Byte) (carry : Bool) :
    ((Exact.sum a b carry).byte.toNat : Int) = (a.toNat + b.toNat + carry.toNat) % 256 :=
  Byte.toNat_ofInt _

theorem toNat_byte_difference (a b : Byte) (borrow : Bool) :
    ((Exact.difference a b borrow).byte.toNat : Int) = (a.toNat - b.toNat - borrow.toNat) % 256 :=
  Byte.toNat_ofInt _

theorem addByte_eq_exact (a b : Byte) (carry : Bool) :
    addByte a b carry = (Exact.sum a b carry).byte := by
  apply UInt8.toNat_inj.mp
  have hbyte := toNat_byte_sum a b carry
  have hsum : (addByte a b carry).toNat = ((a.toNat + b.toNat) % 256 + carry.toNat) % 256 := by
    rw [addByte, UInt8.toNat_add, UInt8.toNat_add, Bool.toNat_toUInt8]
  omega

theorem subByte_eq_exact (a b : Byte) (borrow : Bool) :
    subByte a b borrow = (Exact.difference a b borrow).byte := by
  apply UInt8.toNat_inj.mp
  have := a.toNat_lt
  have := b.toNat_lt
  have := borrow.toNat_le
  have hbyte := toNat_byte_difference a b borrow
  have hdifference : (subByte a b borrow).toNat =
      (256 - borrow.toNat + (256 - b.toNat + a.toNat) % 256) % 256 := by
    rw [subByte, UInt8.toNat_sub, UInt8.toNat_sub, Bool.toNat_toUInt8]
  omega

/-- The half carry of a sum, read off bytes, is the carry out of the low digits. -/
theorem half_add (a b : Byte) (carry : Bool) :
    decide (0x0F < (a &&& 0x0F) + (b &&& 0x0F) + carry.toUInt8) =
      decide (¬(0 ≤ (Exact.sum a b carry).low ∧ (Exact.sum a b carry).low ≤ 15)) := by
  -- two digits and a carry never pass 31, so the sum of bytes does not wrap
  have := carry.toNat_le
  rw [decide_eq_decide, UInt8.lt_iff_toNat_lt, UInt8.toNat_add, UInt8.toNat_add,
    Byte.toNat_and_lowDigit, Byte.toNat_and_lowDigit, Bool.toNat_toUInt8,
    show (0x0F : Byte).toNat = 15 from rfl]
  dsimp only [Exact.sum]
  omega

/-- The half carry of a difference is the borrow into the low digits. -/
theorem half_sub (a b : Byte) (borrow : Bool) :
    decide ((a &&& 0x0F) < (b &&& 0x0F) + borrow.toUInt8) =
      decide (¬(0 ≤ (Exact.difference a b borrow).low ∧
        (Exact.difference a b borrow).low ≤ 15)) := by
  have := borrow.toNat_le
  rw [decide_eq_decide, UInt8.lt_iff_toNat_lt, UInt8.toNat_add, Byte.toNat_and_lowDigit,
    Byte.toNat_and_lowDigit, Bool.toNat_toUInt8]
  dsimp only [Exact.difference]
  omega

/-- A sum overflows in two's complement where both operands have a sign that the result
    has not. -/
theorem overflow_add (a b : Byte) (carry : Bool) :
    ((a ^^^ addByte a b carry) &&& (b ^^^ addByte a b carry)).bit 7 =
      decide (¬(-128 ≤ (Exact.sum a b carry).signed ∧ (Exact.sum a b carry).signed ≤ 127)) := by
  have := a.toNat_lt
  have := b.toNat_lt
  have := carry.toNat_le
  have hbyte := toNat_byte_sum a b carry
  rw [← addByte_eq_exact] at hbyte
  rw [Byte.bit_and, Byte.bit_xor, Byte.bit_xor, Byte.bit_seven,
    Byte.bit_seven, Byte.bit_seven]
  -- exclusive or of two decisions says that they differ
  simp only [Bool.and_eq_decide, bne_iff_ne, ne_eq, decide_eq_decide]
  dsimp only [Exact.sum, Byte.signed]
  omega

/-- A difference overflows in two's complement where the operands differ in sign and
    the result has not that of the first. -/
theorem overflow_sub (a b : Byte) (borrow : Bool) :
    ((a ^^^ b) &&& (a ^^^ subByte a b borrow)).bit 7 =
      decide (¬(-128 ≤ (Exact.difference a b borrow).signed ∧
        (Exact.difference a b borrow).signed ≤ 127)) := by
  have := a.toNat_lt
  have := b.toNat_lt
  have := borrow.toNat_le
  have hbyte := toNat_byte_difference a b borrow
  rw [← subByte_eq_exact] at hbyte
  -- as for a sum, on the signs of the three bytes
  rw [Byte.bit_and, Byte.bit_xor, Byte.bit_xor, Byte.bit_seven,
    Byte.bit_seven, Byte.bit_seven]
  simp only [Bool.and_eq_decide, bne_iff_ne, ne_eq, decide_eq_decide]
  dsimp only [Exact.difference, Byte.signed]
  omega

/-- F after a sum is what the exact results say. -/
theorem addFlags_eq_exact (a b : Byte) (carry : Bool) :
    addFlags a b carry = (Exact.sum a b carry).flags false := by
  have hcarry : decide (0xFF < a.toNat + b.toNat + carry.toNat) =
      decide (¬(0 ≤ (Exact.sum a b carry).unsigned ∧ (Exact.sum a b carry).unsigned ≤ 255)) := by
    rw [decide_eq_decide]
    dsimp only [Exact.sum]
    omega
  rw [addFlags, half_add, overflow_add, hcarry, addByte_eq_exact]
  rfl

theorem subFlags_eq_exact (a b : Byte) (borrow : Bool) :
    subFlags a b borrow = (Exact.difference a b borrow).flags true := by
  have := a.toNat_lt
  have hborrow : decide (a.toNat < b.toNat + borrow.toNat) =
      decide (¬(0 ≤ (Exact.difference a b borrow).unsigned ∧
        (Exact.difference a b borrow).unsigned ≤ 255)) := by
    rw [decide_eq_decide]
    dsimp only [Exact.difference]
    omega
  rw [subFlags, half_sub, overflow_sub, hborrow, subByte_eq_exact]
  rfl

theorem logicFlags_eq_exact (r : Byte) (half : Bool) :
    logicFlags r half = exactLogicFlags r half := by
  rw [logicFlags, Flags.ofLogical, Byte.evenParity_eq_countP]
  rfl

theorem AluOp.apply_eq_exact (op : AluOp) (a v : Byte) (carry : Bool) :
    op.apply a v carry = op.exact a v carry := by
  cases op with
  | add => rw [apply, exact, addByte_eq_exact, addFlags_eq_exact]
  | adc => rw [apply, exact, addByte_eq_exact, addFlags_eq_exact]
  | sub => rw [apply, exact, subByte_eq_exact, subFlags_eq_exact]
  | sbc => rw [apply, exact, subByte_eq_exact, subFlags_eq_exact]
  | and => rw [apply, exact, logicFlags_eq_exact]
  | xor => rw [apply, exact, logicFlags_eq_exact]
  | or => rw [apply, exact, logicFlags_eq_exact]
  | cp => rw [apply, exact, subFlags_eq_exact]

/-- Without a carry in, the low digit of the sum is below that of an operand exactly
    when there is a half carry. -/
theorem half_add_of_result (a b : Byte) :
    (addFlags a b false).h = decide (addByte a b false &&& 0x0F < a &&& 0x0F) := by
  have hbyte := toNat_byte_sum a b false
  rw [addFlags_eq_exact, addByte_eq_exact]
  dsimp only [Exact.flags]
  rw [decide_eq_decide, UInt8.lt_iff_toNat_lt, Byte.toNat_and_lowDigit, Byte.toNat_and_lowDigit]
  dsimp only [Exact.sum, Bool.toNat_false] at hbyte ⊢
  omega

namespace FlagTables

/-- The tables hold the F of exact arithmetic. -/
theorem entries_exact (a b : Byte) (carry : Bool) :
    (generate ()).addEntry a b carry = ((Exact.sum a b carry).flags false).toByte ∧
    (generate ()).subEntry a b carry = ((Exact.difference a b carry).flags true).toByte ∧
    (generate ()).andEntry a b = (exactLogicFlags (a &&& b) true).toByte ∧
    (generate ()).orEntry a b = (exactLogicFlags (a ||| b) false).toByte ∧
    (generate ()).xorEntry a b = (exactLogicFlags (a ^^^ b) false).toByte := by
  refine ⟨?_, ?_, ?_, ?_, ?_⟩
  · rw [addEntry_generate, addFlags_eq_exact]
  · rw [subEntry_generate, subFlags_eq_exact]
  · rw [andEntry_generate, logicFlags_eq_exact]
  · rw [orEntry_generate, logicFlags_eq_exact]
  · rw [xorEntry_generate, logicFlags_eq_exact]

end FlagTables

/-! ## One step -/

namespace Machine

/-- An instruction of the arithmetic unit writes its operand and F as exact arithmetic
    has them. -/
theorem effect_exact {m : Machine} {i : Instr} {dst : Operand} {v : Byte} {f : Flags}
    (h : i.result? m = some (dst, v, f)) (taken : Bool) :
    i.effect taken m = m.replace dst v f := by
  cases i with
  | alu op src =>
    simp only [Instr.result?, Option.some.injEq, Prod.mk.injEq] at h
    obtain ⟨rfl, hr⟩ := h
    show m.setAf (op.apply m.a (m.read src) m.flags.c).1 (op.apply m.a (m.read src) m.flags.c).2 = _
    rw [AluOp.apply_eq_exact, hr]
    rfl
  | aluByte op n =>
    simp only [Instr.result?, Option.some.injEq, Prod.mk.injEq] at h
    obtain ⟨rfl, hr⟩ := h
    show m.setAf (op.apply m.a n m.flags.c).1 (op.apply m.a n m.flags.c).2 = _
    rw [AluOp.apply_eq_exact, hr]
    rfl
  | inc o =>
    simp only [Instr.result?, Option.some.injEq, Prod.mk.injEq] at h
    obtain ⟨rfl, rfl, rfl⟩ := h
    have hbyte : m.read o + 1 = addByte (m.read o) 1 false := (UInt8.add_zero _).symm
    show m.replace o (m.read o + 1) (incFlags (m.read o) m.flags) = _
    rw [hbyte, addByte_eq_exact, incFlags, addFlags_eq_exact]
  | dec o =>
    simp only [Instr.result?, Option.some.injEq, Prod.mk.injEq] at h
    obtain ⟨rfl, rfl, rfl⟩ := h
    have hbyte : m.read o - 1 = subByte (m.read o) 1 false := (UInt8.sub_zero _).symm
    show m.replace o (m.read o - 1) (decFlags (m.read o) m.flags) = _
    rw [hbyte, subByte_eq_exact, decFlags, subFlags_eq_exact]
  | neg =>
    simp only [Instr.result?, Option.some.injEq, Prod.mk.injEq] at h
    obtain ⟨rfl, rfl, rfl⟩ := h
    show m.setAf (subByte 0 m.a false) (subFlags 0 m.a false) = _
    rw [subFlags_eq_exact, subByte_eq_exact]
    rfl
  | _ => cases h

/-- What is written to an operand reads back. -/
theorem read_write_self (m : Machine) (o : Operand) (v : Byte) : (m.write o v).read o = v := by
  cases o with
  | reg r => exact (m.regs.main.get_set r r v).trans (if_pos rfl)
  | high x => cases x <;> exact Word.hi_ofBytes _ _
  | low x => cases x <;> exact Word.lo_ofBytes _ _
  | hl => exact Space.get_set_self _ _ _
  | indexed x d => cases x <;> exact Space.get_set_self _ _ _

/-- A write to an operand leaves the other registers and halves of registers. -/
theorem read_write_of_ne (m : Machine) {o dst : Operand} (v : Byte) (ho : o.isMemory = false)
    (hne : o ≠ dst) : (m.write dst v).read o = m.read o := by
  cases dst with
  | reg r =>
    cases o with
    | reg q => exact (m.regs.main.get_set r q v).trans (if_neg fun h => hne (congrArg _ h))
    | high x => rfl
    | low x => rfl
    | hl => cases ho
    | indexed x d => cases ho
  | high x =>
    cases o with
    | reg q => cases x <;> rfl
    | high y => cases x <;> cases y <;> first | rfl | exact absurd rfl hne
    | low y => cases x <;> cases y <;> first | rfl | exact Word.lo_ofBytes _ _
    | hl => cases ho
    | indexed y d => cases ho
  | low x =>
    cases o with
    | reg q => cases x <;> rfl
    | high y => cases x <;> cases y <;> first | rfl | exact Word.hi_ofBytes _ _
    | low y => cases x <;> cases y <;> first | rfl | exact absurd rfl hne
    | hl => cases ho
    | indexed y d => cases ho
  | hl => cases o <;> first | rfl | cases ho
  | indexed y d => cases o <;> first | rfl | cases ho

theorem read_setFlags (m : Machine) {o : Operand} (f : Flags) (h : o ≠ .reg .f) :
    (m.setFlags f).read o = m.read o := by
  cases o with
  | reg r =>
    cases r with
    | f => exact absurd rfl h
    | _ => rfl
  | _ => rfl

/-- A write to an operand stores to its cell only. -/
theorem sameOutside_write_address (m : Machine) (o : Operand) (v : Byte) :
    m.mem.SameOutside (m.address? o).toList (m.write o v).mem := by
  cases o with
  | hl => exact Space.sameOutside_set _ _ _
  | indexed x d => exact Space.sameOutside_set _ _ _
  | _ => exact Space.sameOutside_of_eq rfl

/-- A new operand and F leave the registers outside the main bank, IX and IY. -/
theorem regs_replace (m : Machine) (o : Operand) (v : Byte) (f : Flags) :
    (m.replace o v f).regs = { m.regs with
      main := (m.replace o v f).regs.main
      ix := (m.replace o v f).regs.ix
      iy := (m.replace o v f).regs.iy } := by
  cases o with
  | high x => cases x <;> rfl
  | low x => cases x <;> rfl
  | _ => rfl

theorem control_write (m : Machine) (o : Operand) (v : Byte) :
    (m.write o v).im = m.im ∧ (m.write o v).halted = m.halted := by
  cases o <;> exact ⟨rfl, rfl⟩

end Machine

/-- Whether an instruction is INC or DEC of F, which no opcode encodes. -/
def Instr.countsF : Instr → Bool
  | inc (.reg .f) | dec (.reg .f) => true
  | _ => false

theorem Instr.countsF_withBytes (i : Instr) (n₁ n₂ : Byte) :
    (i.withBytes n₁ n₂).countsF = i.countsF := by
  cases i with
  | inc dst => cases dst <;> rfl
  | dec dst => cases dst <;> rfl
  | unimplemented opcode => cases opcode <;> rfl
  | _ => rfl

theorem Page.countsF_template (p : Page) (op : Byte) : (p.template op).instr.countsF = false := by
  revert p op
  exact forall_opcode (by decide +kernel)

namespace Machine

theorem result?_ne_f {m : Machine} {dst : Operand} {v : Byte} {f : Flags}
    (h : m.current.instr.result? m = some (dst, v, f)) : dst ≠ .reg .f := by
  have hcount : m.current.instr.countsF = false := by
    rw [current_eq_withBytes, Instr.countsF_withBytes]
    exact Page.countsF_template _ _
  rintro rfl
  cases hi : m.current.instr with
  | inc o =>
    rw [hi] at h hcount
    simp only [Instr.result?, Option.some.injEq, Prod.mk.injEq] at h
    rw [h.1] at hcount
    cases hcount
  | dec o =>
    rw [hi] at h hcount
    simp only [Instr.result?, Option.some.injEq, Prod.mk.injEq] at h
    rw [h.1] at hcount
    cases hcount
  | _ =>
    rw [hi] at h
    simp [Instr.result?] at h

/-- Fetching changes neither the operands nor F. -/
theorem result?_fetch (m : Machine) (d : Decoded) (i : Instr) :
    i.result? (m.fetch d) = i.result? m := by
  cases i with
  | alu op src => simp only [Instr.result?, read_fetch]; rfl
  | inc dst => simp only [Instr.result?, read_fetch]; rfl
  | dec dst => simp only [Instr.result?, read_fetch]; rfl
  | _ => rfl

end Machine

end Z80
