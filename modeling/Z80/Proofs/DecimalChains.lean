/-
  Z80.Proofs.DecimalChains

  Decimal arithmetic on numbers of any length.

  A packed byte holds two decimal digits.  DAA behind ADC or SBC of packed bytes makes the
  decimal sum or difference of the exact binary one: it corrects the low digit where the
  digits pass nine or borrow, and the high digit where the bytes pass ninety-nine or borrow
  (`decimal_daa_sum`, `decimal_daa_difference`).  As C is then the decimal carry, the links
  ADC-DAA and SBC-DAA chain like those of binary limbs, with base 100.  The main statement is
  `decimalChains_exact`.
-/

import Z80.Proofs.CarryChains

namespace Z80

/-! ## Packed bytes -/

namespace Byte

/-- Both digits are decimal digits. -/
def IsPacked (b : Byte) : Prop :=
  b.highDigit.toNat ≤ 9 ∧ b.lowDigit.toNat ≤ 9

instance (b : Byte) : Decidable b.IsPacked :=
  inferInstanceAs (Decidable (_ ∧ _))

/-- The number that the digits of a packed byte stand for. -/
def decimal (b : Byte) : Nat :=
  10 * b.highDigit.toNat + b.lowDigit.toNat

end Byte

/-! ## The decimal adjustment -/

theorem toNat_daaCorrection (a : Byte) (f : Flags) : (daaCorrection a f).toNat =
    (if f.h = true ∨ 9 < a.toNat % 16 then 6 else 0) +
    (if f.c = true ∨ 153 < a.toNat then 96 else 0) := by
  have hlow : 9 < a &&& 0x0F ↔ 9 < a.toNat % 16 := by
    rw [UInt8.lt_iff_toNat_lt, Byte.toNat_and_lowDigit]
    rfl
  have hhigh : 0x99 < a ↔ 153 < a.toNat := UInt8.lt_iff_toNat_lt
  simp only [daaCorrection, Bool.or_eq_true, decide_eq_true_eq, hlow, hhigh]
  split <;> split <;> rfl

theorem toNat_daa (a : Byte) (f : Flags) : (daa a f).1.toNat =
    if f.n then (256 - (daaCorrection a f).toNat + a.toNat) % 256
    else (a.toNat + (daaCorrection a f).toNat) % 256 := by
  have := (daaCorrection a f).toNat_lt
  rw [daa]
  dsimp only
  split
  · rw [UInt8.toNat_sub]
  · rw [UInt8.toNat_add]

theorem c_daa (a : Byte) (f : Flags) :
    (daa a f).2.c = true ↔ f.c = true ∨ 153 < a.toNat := by
  have hhigh : 0x99 < a ↔ 153 < a.toNat := UInt8.lt_iff_toNat_lt
  simp [daa, hhigh]

/-- DAA behind a sum of packed bytes makes the decimal sum. -/
theorem decimal_daa_sum {x y : Byte} (hx : x.IsPacked) (hy : y.IsPacked) (carry : Bool) :
    let e := Exact.sum x y carry
    let r := daa e.byte (e.flags false)
    r.1.IsPacked ∧ Wide.Carries 100 false x.decimal y.decimal r.1.decimal carry r.2.c := by
  intro e r
  have hcarry := carry.toNat_le
  have hbyte : (e.byte.toNat : Int) = (x.toNat + y.toNat + carry.toNat) % 256 :=
    toNat_byte_sum x y carry
  have hh : (e.flags false).h = true ↔ 15 < x.toNat % 16 + y.toNat % 16 + carry.toNat := by
    rw [Exact.flags, decide_eq_true_iff]
    dsimp only [e, Exact.sum]
    omega
  have hc : (e.flags false).c = true ↔ 255 < x.toNat + y.toNat + carry.toNat := by
    rw [Exact.flags, decide_eq_true_iff]
    dsimp only [e, Exact.sum]
    omega
  have hr : r.1.toNat = (e.byte.toNat + (daaCorrection e.byte (e.flags false)).toNat) % 256 :=
    toNat_daa _ _
  have hout : r.2.c = true ↔ (e.flags false).c = true ∨ 153 < e.byte.toNat := c_daa _ _
  simp only [Byte.IsPacked, Byte.decimal, Byte.toNat_highDigit, Byte.toNat_lowDigit] at hx hy ⊢
  -- the low digit is corrected when the low digits pass nine, the high one when all do
  have hlow : (e.flags false).h = true ∨ 9 < e.byte.toNat % 16 ↔
      9 < x.toNat % 16 + y.toNat % 16 + carry.toNat := by
    rw [hh]
    omega
  have hhigh : (e.flags false).c = true ∨ 153 < e.byte.toNat ↔
      99 < 10 * (x.toNat / 16) + x.toNat % 16 + (10 * (y.toNat / 16) + y.toNat % 16) +
        carry.toNat := by
    rw [hc]
    omega
  rw [toNat_daaCorrection, if_congr hlow rfl rfl, if_congr hhigh rfl rfl] at hr
  rw [hhigh] at hout
  constructor
  · split at hr <;> split at hr <;> omega
  · show ((10 * (r.1.toNat / 16) + r.1.toNat % 16 : Nat) : Int) + 100 * r.2.c.toNat = _ + _ + _
    cases hcarry' : r.2.c with
    | false =>
      rw [hcarry', Bool.false_eq_true, false_iff] at hout
      rw [if_neg hout] at hr
      rw [Bool.toNat_false]
      split at hr <;> omega
    | true =>
      rw [hcarry', eq_self_iff_true, true_iff] at hout
      rw [if_pos hout] at hr
      rw [Bool.toNat_true]
      split at hr <;> omega

/-- DAA behind a difference of packed bytes makes the decimal difference. -/
theorem decimal_daa_difference {x y : Byte} (hx : x.IsPacked) (hy : y.IsPacked)
    (borrow : Bool) :
    let e := Exact.difference x y borrow
    let r := daa e.byte (e.flags true)
    r.1.IsPacked ∧ Wide.Carries 100 true x.decimal y.decimal r.1.decimal borrow r.2.c := by
  intro e r
  have hborrow := borrow.toNat_le
  have hbyte : (e.byte.toNat : Int) = (x.toNat - y.toNat - borrow.toNat) % 256 :=
    toNat_byte_difference x y borrow
  have hh : (e.flags true).h = true ↔ x.toNat % 16 < y.toNat % 16 + borrow.toNat := by
    rw [Exact.flags, decide_eq_true_iff]
    dsimp only [e, Exact.difference]
    omega
  have hc : (e.flags true).c = true ↔ x.toNat < y.toNat + borrow.toNat := by
    have := x.toNat_lt
    rw [Exact.flags, decide_eq_true_iff]
    dsimp only [e, Exact.difference]
    omega
  have hr : r.1.toNat =
      (256 - (daaCorrection e.byte (e.flags true)).toNat + e.byte.toNat) % 256 := toNat_daa _ _
  have hout : r.2.c = true ↔ (e.flags true).c = true ∨ 153 < e.byte.toNat := c_daa _ _
  simp only [Byte.IsPacked, Byte.decimal, Byte.toNat_highDigit, Byte.toNat_lowDigit] at hx hy ⊢
  -- a difference of decimal digits that does not borrow is a decimal digit
  have hlow : (e.flags true).h = true ∨ 9 < e.byte.toNat % 16 ↔
      x.toNat % 16 < y.toNat % 16 + borrow.toNat := by
    rw [hh]
    omega
  have hhigh : (e.flags true).c = true ∨ 153 < e.byte.toNat ↔
      10 * (x.toNat / 16) + x.toNat % 16 <
        10 * (y.toNat / 16) + y.toNat % 16 + borrow.toNat := by
    rw [hc]
    omega
  rw [toNat_daaCorrection, if_congr hlow rfl rfl, if_congr hhigh rfl rfl] at hr
  rw [hhigh] at hout
  constructor
  · split at hr <;> split at hr <;> omega
  · show ((10 * (r.1.toNat / 16) + r.1.toNat % 16 : Nat) : Int) = _ - _ - _ + 100 * r.2.c.toNat
    cases hborrow' : r.2.c with
    | false =>
      rw [hborrow', Bool.false_eq_true, false_iff] at hout
      rw [if_neg hout] at hr
      rw [Bool.toNat_false]
      split at hr <;> omega
    | true =>
      rw [hborrow', eq_self_iff_true, true_iff] at hout
      rw [if_pos hout] at hr
      rw [Bool.toNat_true]
      split at hr <;> omega

/-! ## Links -/

namespace Machine

/-- A step of DAA leaves its accumulator and its F. -/
theorem step_daa {m : Machine} (hrun : m.halted = false) (hdaa : m.current.instr = .daa) :
    m.step.a = (daa m.a m.flags).1 ∧ m.step.flags = (daa m.a m.flags).2 := by
  rw [step_of_running hrun, execute, hdaa]
  exact ⟨rfl, rfl⟩

end Machine

/-- A decimal link: some machine with the carry of `f` and `x` in A executes ADC, or SBC if
    it `subtracts`, with `y` and then DAA, and is left with `r` in A and with `g`. -/
def DecimalLink (subtracts : Bool) (f : Flags) (x y r : Byte) (g : Flags) : Prop :=
  ∃ m : Machine, m.Combines (.withCarry subtracts) f.c x y ∧ m.step.current.instr = .daa ∧
    m.step.step.a = r ∧ m.step.step.flags = g

theorem DecimalLink.carries {subtracts : Bool} {f g : Flags} {x y r : Byte}
    (hx : x.IsPacked) (hy : y.IsPacked) (h : DecimalLink subtracts f x y r g) :
    r.IsPacked ∧ Wide.Carries 100 subtracts x.decimal y.decimal r.decimal f.c g.c := by
  obtain ⟨m, hm, hdaa, rfl, rfl⟩ := h
  have hrun : m.step.halted = false := by
    rw [hm.step]
    exact hm.running
  obtain ⟨ha, hf⟩ := Machine.step_daa hrun hdaa
  have hbinary : m.step.a = ((AluOp.withCarry subtracts).exact x y f.c).1 ∧
      m.step.flags = ((AluOp.withCarry subtracts).exact x y f.c).2 := by
    rw [hm.step]
    exact ⟨rfl, rfl⟩
  rw [ha, hf, hbinary.1, hbinary.2]
  cases subtracts with
  | false => exact decimal_daa_sum hx hy f.c
  | true => exact decimal_daa_difference hx hy f.c

/-! ## Chains -/

/-- The number whose pairs of digits are the packed bytes of a list, from the least
    significant on. -/
def Byte.decimalNumber (xs : List Byte) : Nat :=
  Nat.ofDigits 100 (xs.map decimal)

theorem Byte.decimalNumber_lt {xs : List Byte} (h : ∀ x ∈ xs, x.IsPacked) :
    decimalNumber xs < 100 ^ xs.length := by
  have hdigits : ∀ d ∈ xs.map decimal, d < 100 := by
    rw [List.forall_mem_map]
    intro x hx
    have := h x hx
    rw [IsPacked] at this
    rw [decimal]
    omega
  simpa [decimalNumber] using Nat.ofDigits_lt_base_pow_length (by decide) hdigits

theorem Chain.carries {subtracts : Bool} {f g : Flags} {xs ys rs : List Byte}
    (h : Chain (DecimalLink subtracts) f xs ys rs g) (hx : ∀ x ∈ xs, x.IsPacked)
    (hy : ∀ y ∈ ys, y.IsPacked) :
    (∀ r ∈ rs, r.IsPacked) ∧
    Wide.Carries (100 ^ xs.length) subtracts (Byte.decimalNumber xs) (Byte.decimalNumber ys)
      (Byte.decimalNumber rs) f.c g.c := by
  induction h with
  | nil f =>
    refine ⟨by simp, ?_⟩
    cases subtracts <;> simp [Wide.Carries, Wide.total, Byte.decimalNumber]
  | cons first rest ih =>
    rw [List.forall_mem_cons] at hx hy
    obtain ⟨hr, hfirst⟩ := first.carries hx.1 hy.1
    obtain ⟨hrs, hrest⟩ := ih hx.2 hy.2
    refine ⟨List.forall_mem_cons.mpr ⟨hr, hrs⟩, ?_⟩
    simp only [Byte.decimalNumber, List.map_cons, Nat.ofDigits_cons, List.length_cons, pow_succ']
    exact hfirst.append hrest

/-- ADC with DAA, and SBC with DAA, add and subtract decimal numbers of any length.  The
    chains can be executed on all packed operands; then all bytes of the result are packed,
    and the result and the last carry make up the exact sum or difference with the first
    carry.  The table for DAA holds what the links compute. -/
theorem decimalChains_exact (subtracts : Bool) (f : Flags) {xs ys : List Byte}
    (hlength : xs.length = ys.length) (hx : ∀ x ∈ xs, x.IsPacked) (hy : ∀ y ∈ ys, y.IsPacked) :
    (∃ rs g, Chain (DecimalLink subtracts) f xs ys rs g) ∧
    (∀ rs g, Chain (DecimalLink subtracts) f xs ys rs g →
      rs.length = xs.length ∧
      (∀ r ∈ rs, r.IsPacked) ∧
      Wide.Carries (100 ^ xs.length) subtracts (Byte.decimalNumber xs) (Byte.decimalNumber ys)
        (Byte.decimalNumber rs) f.c g.c) ∧
    ∀ a f, (FlagTables.generate ()).daaEntry a f = FlagTables.word (daa a f) := by
  refine ⟨?_, fun rs g h => ⟨h.length_result, h.carries hx hy⟩, FlagTables.daaEntry_generate⟩
  refine Chain.exists_chain (fun f x y => ?_) f hlength
  obtain ⟨m, hm, hdaa⟩ := Machine.exists_combines subtracts f.c x y
  exact ⟨_, _, m, hm, hdaa, rfl, rfl⟩

/-- 4999 and 5000 with a carry make 10000: all digits are corrected and a carry is left.
    0 less 1 makes 9999 with a borrow. -/
theorem decimalChains_exact_corrected :
    (∃ rs g, Chain (DecimalLink false) { c := true } [0x99, 0x49] [0x00, 0x50] rs g ∧
      Byte.decimalNumber rs = 0 ∧ g.c = true) ∧
    ∃ rs g, Chain (DecimalLink true) {} [0x00, 0x00] [0x01, 0x00] rs g ∧
      Byte.decimalNumber rs = 9999 ∧ g.c = true := by
  have hpair {x y : Byte} (hx : x.IsPacked) (hy : y.IsPacked) : ∀ b ∈ [x, y], b.IsPacked :=
    List.forall_mem_cons.mpr ⟨hx, List.forall_mem_singleton.mpr hy⟩
  constructor
  · obtain ⟨⟨rs, g, h⟩, hexact, -⟩ := decimalChains_exact false { c := true }
      (show [0x99, 0x49].length = [0x00, 0x50].length from rfl)
      (hpair (by decide) (by decide)) (hpair (by decide) (by decide))
    obtain ⟨hlength, hpacked, hcarries⟩ := hexact rs g h
    have hlt := Byte.decimalNumber_lt hpacked
    rw [show rs.length = 2 from hlength] at hlt
    have hsum : (Byte.decimalNumber rs : Int) + 10000 * g.c.toNat = 10000 := hcarries
    cases hc : g.c with
    | false => rw [hc, Bool.toNat_false] at hsum; omega
    | true => rw [hc, Bool.toNat_true] at hsum; exact ⟨rs, g, h, by omega, hc⟩
  · obtain ⟨⟨rs, g, h⟩, hexact, -⟩ := decimalChains_exact true {}
      (show [0x00, 0x00].length = [0x01, 0x00].length from rfl)
      (hpair (by decide) (by decide)) (hpair (by decide) (by decide))
    obtain ⟨hlength, hpacked, hcarries⟩ := hexact rs g h
    have hdifference : (Byte.decimalNumber rs : Int) = -1 + 10000 * g.c.toNat := hcarries
    cases hc : g.c with
    | false => rw [hc, Bool.toNat_false] at hdifference; omega
    | true => rw [hc, Bool.toNat_true] at hdifference; exact ⟨rs, g, h, by omega, hc⟩

end Z80
