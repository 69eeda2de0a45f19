/-
  Z80.Proofs.CarryChains

  Sums and differences of numbers of any length.

  A long number is added limb by limb, from the least significant on, each ADC taking the
  carry that the one before has left; SBC does the same for differences.  A result is exact
  for a number of bits when its value, its carry, its sign and its overflow are those of the
  integers (`Wide.Result`).  One ADC or SBC is exact for the bits of its operands, and what is
  exact for the low bits and, with the carry handed on, for the high bits is exact for all of
  them (`Wide.Result.append`): that step carries the induction.

  A chain leaves open what happens between two links, and which form of the instruction is
  executed: only the carry has to reach the next link (`Chain`).  The main statement is
  `chains_exact`.
-/

import Mathlib.Data.Nat.Digits.Defs
import Mathlib.Tactic.LinearCombination
import Z80.Proofs.ExactWords

namespace Z80

/-! ## Exact results of any width -/

namespace Wide

/-- The exact sum of two numbers and a carry, or their difference less a borrow. -/
def total (subtracts : Bool) (x y : Int) (carry : Bool) : Int :=
  if subtracts then x - y - carry.toNat else x + y + carry.toNat

/-- The result `r` and the carry out of it make up the exact total: a carry stands for
    `base` above the result, a borrow for `base` below. -/
def Carries (base : Nat) (subtracts : Bool) (x y r : Nat) (carry out : Bool) : Prop :=
  if subtracts then (r : Int) = total true x y carry + base * out.toNat
  else (r : Int) + base * out.toNat = total false x y carry

/-- The number that `x` stands for in two's complement on a number of bits. -/
def signed (bits x : Nat) : Int :=
  if x < 2 ^ (bits - 1) then x else x - 2 ^ bits

/-- The number can be written in two's complement on a number of bits. -/
def Fits (bits : Nat) (i : Int) : Prop :=
  -2 ^ (bits - 1) ≤ i ∧ i < 2 ^ (bits - 1)

instance (bits : Nat) (i : Int) : Decidable (Fits bits i) :=
  inferInstanceAs (Decidable (_ ∧ _))

/-- A sum or difference of numbers on a number of bits, with F after it. -/
structure Result (bits : Nat) (subtracts : Bool) (x y r : Nat) (carry : Bool) (f : Flags) :
    Prop where
  lt : r < 2 ^ bits
  carries : Carries (2 ^ bits) subtracts x y r carry f.c
  /-- S is the top bit of the result. -/
  sign : f.s = r.testBit (bits - 1)
  /-- P/V says that the exact result in two's complement does not fit. -/
  overflow : f.pv = true ↔ ¬Fits bits (total subtracts (signed bits x) (signed bits y) carry)

/-! ## Low and high parts -/

/-- Low parts with a carry into the high parts make up the whole. -/
theorem Carries.append {base base' : Nat} {subtracts carry mid out : Bool}
    {x y r x' y' r' : Nat} (low : Carries base subtracts x y r carry mid)
    (high : Carries base' subtracts x' y' r' mid out) :
    Carries (base * base') subtracts (x + base * x') (y + base * y') (r + base * r') carry
      out := by
  cases subtracts with
  | false =>
    simp only [Carries, total, Bool.false_eq_true, if_false] at low high ⊢
    push_cast
    linear_combination low + base * high
  | true =>
    simp only [Carries, total, if_true] at low high ⊢
    push_cast
    linear_combination low + base * high

/-- The sign of a number is the sign of its high part. -/
theorem signed_append {k l x x' : Nat} (hl : 0 < l) (hx : x < 2 ^ k) :
    signed (k + l) (x + 2 ^ k * x') = x + 2 ^ k * signed l x' := by
  have hhalf : 2 ^ (k + l - 1) = 2 ^ k * 2 ^ (l - 1) := by
    rw [← pow_add, Nat.add_sub_assoc hl]
  have hsign : x + 2 ^ k * x' < 2 ^ (k + l - 1) ↔ x' < 2 ^ (l - 1) := by
    rw [hhalf]
    constructor
    · intro h
      exact Nat.lt_of_mul_lt_mul_left (Nat.lt_of_le_of_lt (Nat.le_add_left _ x) h)
    · intro h
      calc x + 2 ^ k * x' < 2 ^ k * (x' + 1) := by rw [Nat.mul_succ]; omega
        _ ≤ 2 ^ k * 2 ^ (l - 1) := Nat.mul_le_mul_left _ h
  rw [signed, signed, if_congr hsign rfl rfl]
  split
  · push_cast
    ring
  · push_cast
    ring

/-- A number fits when its high part does. -/
theorem fits_append {k l r : Nat} (hl : 0 < l) (hr : r < 2 ^ k) (i : Int) :
    Fits (k + l) (r + 2 ^ k * i) ↔ Fits l i := by
  have hpos : (0 : Int) < 2 ^ k := by positivity
  have hr' : (r : Int) < 2 ^ k := by exact_mod_cast hr
  have hhigh : ((r : Int) + 2 ^ k * i) / 2 ^ k = i := by
    rw [Int.add_mul_ediv_left _ _ hpos.ne', Int.ediv_eq_zero_of_lt (Int.natCast_nonneg r) hr',
      zero_add]
  have hhalf : (2 : Int) ^ (k + l - 1) = 2 ^ (l - 1) * 2 ^ k := by
    rw [← pow_add, Nat.add_sub_assoc hl, Nat.add_comm]
  have hbelow : -2 ^ (k + l - 1) ≤ (r : Int) + 2 ^ k * i ↔ -2 ^ (l - 1) ≤ i := by
    rw [hhalf, ← Int.neg_mul, ← Int.le_ediv_iff_mul_le hpos, hhigh]
  have habove : (r : Int) + 2 ^ k * i < 2 ^ (k + l - 1) ↔ i < 2 ^ (l - 1) := by
    rw [hhalf, ← Int.ediv_lt_iff_lt_mul hpos, hhigh]
  rw [Fits, Fits, hbelow, habove]

/-- What is exact for the low bits and, with the carry handed on, for the high bits is exact
    for all of them. -/
theorem Result.append {k l : Nat} {subtracts carry : Bool} {x y r x' y' r' : Nat} {f g : Flags}
    (hl : 0 < l) (hx : x < 2 ^ k) (hy : y < 2 ^ k) (low : Result k subtracts x y r carry f)
    (high : Result l subtracts x' y' r' f.c g) :
    Result (k + l) subtracts (x + 2 ^ k * x') (y + 2 ^ k * y') (r + 2 ^ k * r') carry g where
  lt := by
    calc r + 2 ^ k * r' < 2 ^ k * (r' + 1) := by rw [Nat.mul_succ]; have := low.lt; omega
      _ ≤ 2 ^ k * 2 ^ l := Nat.mul_le_mul_left _ high.lt
      _ = 2 ^ (k + l) := (pow_add 2 k l).symm
  carries := by
    rw [pow_add]
    exact low.carries.append high.carries
  sign := by
    have htop : k + l - 1 = k + (l - 1) := Nat.add_sub_assoc hl k
    rw [high.sign, htop, Nat.add_comm r, Nat.testBit_two_pow_mul_add r' low.lt,
      if_neg (Nat.not_lt.mpr (Nat.le_add_right _ _)), Nat.add_sub_cancel_left]
  overflow := by
    -- the exact result is the low limb plus the exact result of the high parts
    have htotal : total subtracts (x + 2 ^ k * signed l x') (y + 2 ^ k * signed l y') carry =
        r + 2 ^ k * total subtracts (signed l x') (signed l y') f.c := by
      have hcarries := low.carries
      cases subtracts with
      | false =>
        simp only [Carries, total, Bool.false_eq_true, if_false] at hcarries ⊢
        push_cast at hcarries
        linear_combination -hcarries
      | true =>
        simp only [Carries, total, if_true] at hcarries ⊢
        push_cast at hcarries
        linear_combination -hcarries
    rw [high.overflow, signed_append hl hx, signed_append hl hy, htotal, fits_append hl low.lt]

end Wide

/-! ## One limb -/

namespace Wide

/-- A result is exact when it is the exact total modulo `2 ^ bits` and C says whether the
    total is out of range. -/
theorem Result.of_total {bits : Nat} {subtracts carry : Bool} {x y r : Nat} {f : Flags}
    (hx : x < 2 ^ bits) (hy : y < 2 ^ bits)
    (hr : (r : Int) = total subtracts x y carry % 2 ^ bits)
    (hc : f.c = true ↔ ¬(0 ≤ total subtracts x y carry ∧ total subtracts x y carry < 2 ^ bits))
    (hs : f.s = r.testBit (bits - 1))
    (hpv : f.pv = true ↔ ¬Fits bits (total subtracts (signed bits x) (signed bits y) carry)) :
    Result bits subtracts x y r carry f where
  lt := by
    have hlt : (r : Int) < 2 ^ bits := hr ▸ Int.emod_lt_of_pos _ (by positivity)
    exact_mod_cast hlt
  carries := by
    have hcarry := carry.toNat_le
    zify at hx hy
    -- a sum is below twice the modulus, and a difference not below its negative
    by_cases hin : 0 ≤ total subtracts x y carry ∧ total subtracts x y carry < 2 ^ bits
    · have hnone : f.c = false := by simpa [hin] using hc
      rw [Int.emod_eq_of_lt hin.1 hin.2] at hr
      cases subtracts <;> simp [Carries, hnone, hr]
    · have hout : f.c = true := hc.mpr hin
      cases subtracts with
      | false =>
        simp only [total, Bool.false_eq_true, if_false] at hr hin
        have hwrap : (r : Int) = x + y + carry.toNat - 2 ^ bits := by
          rw [hr, ← Int.sub_emod_right, Int.emod_eq_of_lt (by omega) (by omega)]
        simp [Carries, total, hout, hwrap]
      | true =>
        simp only [total, if_true] at hr hin
        have hwrap : (r : Int) = x - y - carry.toNat + 2 ^ bits := by
          rw [hr, ← Int.add_emod_right, Int.emod_eq_of_lt (by omega) (by omega)]
        simp [Carries, total, hout, hwrap]
  sign := hs
  overflow := hpv

end Wide

/-- ADC, or SBC if it `subtracts`. -/
def AluOp.withCarry (subtracts : Bool) : AluOp :=
  if subtracts then sbc else adc

/-- ADC of pairs, or SBC if it `subtracts`. -/
def WordOp.withCarry (subtracts : Bool) : WordOp :=
  if subtracts then sbc else adc

theorem Byte.signed_eq (b : Byte) : Wide.signed 8 b.toNat = b.signed := rfl

theorem Word.signed_eq (w : Word) : Wide.signed 16 w.toNat = w.signed := rfl

/-- ADC and SBC are exact on eight bits. -/
theorem AluOp.result_withCarry (subtracts : Bool) (x y : Byte) (carry : Bool) :
    let r := (withCarry subtracts).exact x y carry
    Wide.Result 8 subtracts x.toNat y.toNat r.1.toNat carry r.2 := by
  obtain ⟨e, he, hunsigned, hsigned⟩ : ∃ e : Exact,
      (withCarry subtracts).exact x y carry = (e.byte, e.flags subtracts) ∧
      e.unsigned = Wide.total subtracts x.toNat y.toNat carry ∧
      e.signed = Wide.total subtracts x.signed y.signed carry := by
    cases subtracts with
    | false => exact ⟨.sum x y carry, rfl, rfl, rfl⟩
    | true => exact ⟨.difference x y carry, rfl, rfl, rfl⟩
  dsimp only
  rw [he]
  refine .of_total x.toNat_lt y.toNat_lt ?_ ?_ rfl ?_
  · rw [← hunsigned]
    exact Byte.toNat_ofInt _
  · rw [Exact.flags, decide_eq_true_iff, hunsigned]
    omega
  · rw [Exact.flags, decide_eq_true_iff, hsigned, Byte.signed_eq, Byte.signed_eq, Wide.Fits]
    omega

/-- ADC and SBC of pairs are exact on sixteen bits. -/
theorem WordOp.result_withCarry (subtracts : Bool) (x y : Word) (f : Flags) :
    let r := (withCarry subtracts).exact x y f
    Wide.Result 16 subtracts x.toNat y.toNat r.1.toNat f.c r.2 := by
  obtain ⟨e, he, hunsigned, hsigned⟩ : ∃ e : Exact,
      (withCarry subtracts).exact x y f = (e.word, e.wordFlags subtracts) ∧
      e.unsigned = Wide.total subtracts x.toNat y.toNat f.c ∧
      e.signed = Wide.total subtracts x.signed y.signed f.c := by
    cases subtracts with
    | false => exact ⟨.wordSum x y f.c, rfl, rfl, rfl⟩
    | true => exact ⟨.wordDifference x y f.c, rfl, rfl, rfl⟩
  dsimp only
  rw [he]
  refine .of_total x.toNat_lt y.toNat_lt ?_ ?_ rfl ?_
  · rw [← hunsigned]
    exact Word.toNat_ofInt _
  · rw [Exact.wordFlags, decide_eq_true_iff, hunsigned]
    omega
  · rw [Exact.wordFlags, decide_eq_true_iff, hsigned, Word.signed_eq, Word.signed_eq, Wide.Fits]
    omega

/-! ## Chains -/

/-- A chain of links over two lists of operands, from the least significant on.  A link
    takes its operands and the F that it finds to a result and the F that it leaves; the
    next link finds that F. -/
inductive Chain {α : Type} (link : Flags → α → α → α → Flags → Prop) :
    Flags → List α → List α → List α → Flags → Prop
  | nil (f : Flags) : Chain link f [] [] [] f
  | cons {f g h : Flags} {x y r : α} {xs ys rs : List α} (first : link f x y r g)
      (rest : Chain link g xs ys rs h) : Chain link f (x :: xs) (y :: ys) (r :: rs) h

namespace Chain

variable {α : Type} {link : Flags → α → α → α → Flags → Prop}

theorem length_result {f g : Flags} {xs ys rs : List α} (h : Chain link f xs ys rs g) :
    rs.length = xs.length := by
  induction h with
  | nil f => rfl
  | cons first rest ih => rw [List.length_cons, List.length_cons, ih]

/-- Links that can be made of any operands make chains of any length. -/
theorem exists_chain (hlink : ∀ f x y, ∃ r g, link f x y r g) (f : Flags) {xs ys : List α}
    (hlength : xs.length = ys.length) : ∃ rs g, Chain link f xs ys rs g := by
  induction xs generalizing f ys with
  | nil =>
    obtain rfl : ys = [] := List.length_eq_zero_iff.mp hlength.symm
    exact ⟨[], f, .nil f⟩
  | cons x xs ih =>
    cases ys with
    | nil => cases hlength
    | cons y ys =>
      obtain ⟨r, g, first⟩ := hlink f x y
      obtain ⟨rs, h, rest⟩ := ih g (Nat.succ.inj hlength)
      exact ⟨r :: rs, h, .cons first rest⟩

/-- Links that are exact on a number of bits make chains that are exact on all bits of
    their operands. -/
theorem result {bits : Nat} {subtracts : Bool} {num : α → Nat} (hbits : 0 < bits)
    (hnum : ∀ x, num x < 2 ^ bits)
    (hlink : ∀ f x y r g, link f x y r g →
      Wide.Result bits subtracts (num x) (num y) (num r) f.c g)
    {f g : Flags} {xs ys rs : List α} (h : Chain link f xs ys rs g) (hne : xs ≠ []) :
    Wide.Result (bits * xs.length) subtracts (Nat.ofDigits (2 ^ bits) (xs.map num))
      (Nat.ofDigits (2 ^ bits) (ys.map num)) (Nat.ofDigits (2 ^ bits) (rs.map num)) f.c g := by
  induction h with
  | nil f => exact absurd rfl hne
  | @cons f g h x y r xs ys rs first rest ih =>
    have hfirst := hlink f x y r g first
    simp only [List.map_cons, List.length_cons, Nat.ofDigits_cons]
    cases rest with
    | nil => simpa using hfirst
    | cons second rest =>
      rw [Nat.mul_succ, Nat.add_comm (bits * _)]
      exact hfirst.append (Nat.mul_pos hbits (Nat.succ_pos _)) (hnum x) (hnum y)
        (ih (List.cons_ne_nil _ _))

end Chain

/-! ## Links of the machine -/

/-- The operation of an instruction on the accumulator, with the byte that it combines with
    it. -/
def Instr.operand? (m : Machine) : Instr → Option (AluOp × Byte)
  | alu op src => some (op, m.read src)
  | aluByte op n => some (op, n)
  | _ => none

theorem Instr.result?_of_operand? {m : Machine} {i : Instr} {op : AluOp} {y : Byte}
    (h : i.operand? m = some (op, y)) :
    i.result? m = some (.reg .a, op.exact m.a y m.flags.c) := by
  cases i with
  | alu op' src =>
    simp only [operand?, Option.some.injEq, Prod.mk.injEq] at h
    obtain ⟨rfl, rfl⟩ := h
    rfl
  | aluByte op' n =>
    simp only [operand?, Option.some.injEq, Prod.mk.injEq] at h
    obtain ⟨rfl, rfl⟩ := h
    rfl
  | _ => cases h

namespace Machine

/-- The machine is about to combine `x` in A with `y`, by an immediate byte or by any
    operand that holds `y`. -/
structure Combines (m : Machine) (op : AluOp) (carry : Bool) (x y : Byte) : Prop where
  running : m.halted = false
  current : m.current.instr.operand? m = some (op, y)
  a : m.a = x
  carry : m.flags.c = carry

/-- The machine is about to combine `x` in HL with `y` in another pair. -/
structure CombinesPairs (m : Machine) (op : WordOp) (src : Pair) (carry : Bool) (x y : Word) :
    Prop where
  running : m.halted = false
  current : m.current.instr.wordOp? = some (op, .bank .hl, src)
  hl : m.hl = x
  src : m.pair src = y
  carry : m.flags.c = carry

theorem Combines.step {m : Machine} {op : AluOp} {carry : Bool} {x y : Byte}
    (h : m.Combines op carry x y) :
    m.step = { (m.fetch m.current).setAf (op.exact x y carry).1 (op.exact x y carry).2 with
      cycles := m.step.cycles } := by
  rw [step_of_running h.running, execute,
    effect_exact ((result?_fetch m _ _).trans (Instr.result?_of_operand? h.current)), h.a, h.carry]
  rfl

theorem CombinesPairs.step {m : Machine} {op : WordOp} {src : Pair} {carry : Bool} {x y : Word}
    (h : m.CombinesPairs op src carry x y) :
    m.step.hl = (op.exact x y m.flags).1 ∧ m.step.flags = (op.exact x y m.flags).2 := by
  have hx : m.pair (.bank .hl) = x := h.hl
  rw [step_wordOp h.running h.current, hx, h.src]
  constructor
  · exact (pair_setPair _ _ (.bank .hl) _).trans (if_pos rfl)
  · exact flags_setPair _ (by decide) _

/-- Any two bytes can be combined with any carry, and DAA can come next. -/
theorem exists_combines (subtracts carry : Bool) (x y : Byte) :
    ∃ m : Machine, m.Combines (.withCarry subtracts) carry x y ∧ m.step.current.instr = .daa := by
  let m := (atCode 0 [if subtracts then 0xDE else 0xCE, y, 0x27]).setAf x { c := carry }
  have hmem : m.mem = ((Space.zero.set 0 (if subtracts then 0xDE else 0xCE)).set 1 y).set 2 0x27 :=
    rfl
  have hcurrent : m.current = ⟨.aluByte (.withCarry subtracts) y, 2, false⟩ := by
    rw [current, show m.pc = 0 from rfl, hmem]
    cases subtracts <;>
    · simp [Space.get_set]
      rfl
  have hcombines : m.Combines (.withCarry subtracts) carry x y :=
    ⟨rfl, by rw [hcurrent]; rfl, rfl, rfl⟩
  refine ⟨m, hcombines, ?_⟩
  have hmem' : m.step.mem = m.mem := by
    rw [hcombines.step]
    rfl
  have hpc : m.step.pc = 2 := by
    rw [hcombines.step, hcurrent]
    rfl
  rw [current, hmem', hpc, hmem, Space.get_set_self]
  rfl

/-- Any two words can be combined with any carry, the second from BC, DE or SP. -/
theorem exists_combinesPairs (subtracts carry : Bool) {src : Pair}
    (hsrc : src ∈ [Pair.bank .bc, .bank .de, .sp]) (x y : Word) :
    ∃ m : Machine, m.CombinesPairs (.withCarry subtracts) src carry x y := by
  have hne : .bank .hl ≠ src := by
    rintro rfl
    exact absurd hsrc (by decide)
  obtain ⟨op, hop⟩ : ∃ op, Page.ed.wordOp? op = some (.withCarry subtracts, .bank .hl, src) := by
    simp only [List.mem_cons, List.not_mem_nil, or_false] at hsrc
    obtain rfl | rfl | rfl := hsrc
    · exact ⟨if subtracts then 0x42 else 0x4A, by cases subtracts <;> rfl⟩
    · exact ⟨if subtracts then 0x52 else 0x5A, by cases subtracts <;> rfl⟩
    · exact ⟨if subtracts then 0x72 else 0x7A, by cases subtracts <;> rfl⟩
  let start := ((atCode 0 [0xED, op]).setFlags { c := carry }).setPair (.bank .hl) x
  have hencoding : (start.setPair src y).encoding = ⟨.ed, op, 0, 0⟩ := by
    have hmem : (start.setPair src y).mem = (Space.zero.set 0 0xED).set 1 op :=
      mem_setPair start src y
    have hpc : (start.setPair src y).pc = 0 := pc_setPair start src y
    rw [encoding, hmem, hpc]
    simp [Space.get_set, Encoding.ofBytes]
  refine ⟨start.setPair src y, ?_, ?_, ?_, ?_, ?_⟩
  · cases src with
    | index x => cases x <;> rfl
    | _ => rfl
  · rw [current_wordOp?, hencoding]
    exact hop
  · show (start.setPair src y).pair (.bank .hl) = x
    rw [pair_setPair, if_neg hne, pair_setPair, if_pos rfl]
  · rw [pair_setPair, if_pos rfl]
  · rw [flags_setPair]
    · rfl
    · rintro rfl
      exact absurd hsrc (by decide)

end Machine

/-- A link of bytes: some machine with the carry of `f` and `x` in A executes ADC, or SBC if
    it `subtracts`, with `y`, and is left with `r` in A and with `g`. -/
def ByteLink (subtracts : Bool) (f : Flags) (x y r : Byte) (g : Flags) : Prop :=
  ∃ m : Machine, m.Combines (.withCarry subtracts) f.c x y ∧ m.step.a = r ∧ m.step.flags = g

/-- A link of words: the same with `x` in HL and `y` in the pair `src`. -/
def WordLink (subtracts : Bool) (src : Pair) (f : Flags) (x y r : Word) (g : Flags) : Prop :=
  ∃ m : Machine, m.CombinesPairs (.withCarry subtracts) src f.c x y ∧ m.step.hl = r ∧
    m.step.flags = g

theorem ByteLink.result {subtracts : Bool} {f g : Flags} {x y r : Byte}
    (h : ByteLink subtracts f x y r g) :
    Wide.Result 8 subtracts x.toNat y.toNat r.toNat f.c g := by
  obtain ⟨m, hm, rfl, rfl⟩ := h
  rw [hm.step]
  exact AluOp.result_withCarry subtracts x y f.c

theorem WordLink.result {subtracts : Bool} {src : Pair} {f g : Flags} {x y r : Word}
    (h : WordLink subtracts src f x y r g) :
    Wide.Result 16 subtracts x.toNat y.toNat r.toNat f.c g := by
  obtain ⟨m, hm, rfl, rfl⟩ := h
  obtain ⟨hhl, hflags⟩ := hm.step
  rw [hhl, hflags]
  exact hm.carry ▸ WordOp.result_withCarry subtracts x y m.flags

/-! ## Numbers of many limbs -/

/-- The number whose bytes are those of a list, from the least significant on. -/
def Byte.number (xs : List Byte) : Nat :=
  Nat.ofDigits (2 ^ 8) (xs.map UInt8.toNat)

/-- The number whose words are those of a list, from the least significant on. -/
def Word.number (xs : List Word) : Nat :=
  Nat.ofDigits (2 ^ 16) (xs.map UInt16.toNat)

/-- Chains of ADC and of SBC add and subtract numbers of any length, byte by byte in A or
    word by word in HL.  They can be executed on all operands, and then the result and the
    last carry make up the exact sum or difference with the first carry, S is the top bit of
    the whole result and P/V says that the numbers in two's complement overflow its width. -/
theorem chains_exact (subtracts : Bool) (f : Flags) :
    (∀ xs ys : List Byte, xs.length = ys.length → xs ≠ [] →
      (∃ rs g, Chain (ByteLink subtracts) f xs ys rs g) ∧
      ∀ rs g, Chain (ByteLink subtracts) f xs ys rs g →
        rs.length = xs.length ∧
        Wide.Result (8 * xs.length) subtracts (Byte.number xs) (Byte.number ys)
          (Byte.number rs) f.c g) ∧
    ∀ src ∈ [Pair.bank .bc, .bank .de, .sp],
      ∀ xs ys : List Word, xs.length = ys.length → xs ≠ [] →
        (∃ rs g, Chain (WordLink subtracts src) f xs ys rs g) ∧
        ∀ rs g, Chain (WordLink subtracts src) f xs ys rs g →
          rs.length = xs.length ∧
          Wide.Result (16 * xs.length) subtracts (Word.number xs) (Word.number ys)
            (Word.number rs) f.c g := by
  refine ⟨fun xs ys hlength hne => ⟨?_, ?_⟩, fun src hsrc xs ys hlength hne => ⟨?_, ?_⟩⟩
  · refine Chain.exists_chain (fun f x y => ?_) f hlength
    obtain ⟨m, hm, -⟩ := Machine.exists_combines subtracts f.c x y
    exact ⟨_, _, m, hm, rfl, rfl⟩
  · intro rs g h
    exact ⟨h.length_result, h.result (by decide) UInt8.toNat_lt (fun _ _ _ _ _ => ByteLink.result)
      hne⟩
  · refine Chain.exists_chain (fun f x y => ?_) f hlength
    obtain ⟨m, hm⟩ := Machine.exists_combinesPairs subtracts f.c hsrc x y
    exact ⟨_, _, m, hm, rfl, rfl⟩
  · intro rs g h
    exact ⟨h.length_result, h.result (by decide) UInt16.toNat_lt
      (fun _ _ _ _ _ => WordLink.result) hne⟩

/-- 7FFFh and 1 make 8000h: no carry, but an overflow of two bytes.  8000 0000h less 1 makes
    7FFF FFFFh: no borrow, but an overflow of two words. -/
theorem chains_exact_overflow :
    (∃ rs g, Chain (ByteLink false) {} [0xFF, 0x7F] [0x01, 0x00] rs g ∧
      Byte.number rs = 0x8000 ∧ g.c = false ∧ g.s = true ∧ g.pv = true) ∧
    ∃ rs g, Chain (WordLink true .sp) {} [0x0000, 0x8000] [0x0001, 0x0000] rs g ∧
      Word.number rs = 0x7FFFFFFF ∧ g.c = false ∧ g.s = false ∧ g.pv = true := by
  constructor
  · obtain ⟨⟨rs, g, h⟩, hexact⟩ :=
      (chains_exact false {}).1 [0xFF, 0x7F] [0x01, 0x00] rfl (by decide)
    obtain ⟨-, hlt, hcarries, hs, hpv⟩ := hexact rs g h
    have hlt : Byte.number rs < 0x10000 := hlt
    have hsum : (Byte.number rs : Int) + 0x10000 * g.c.toNat = 0x8000 := hcarries
    have hc : g.c = false := by
      cases hc : g.c with
      | false => rfl
      | true => rw [hc, Bool.toNat_true] at hsum; omega
    have hr : Byte.number rs = 0x8000 := by
      rw [hc, Bool.toNat_false] at hsum
      omega
    rw [hr] at hs
    exact ⟨rs, g, h, hr, hc, hs, hpv.mpr (by decide)⟩
  · obtain ⟨⟨rs, g, h⟩, hexact⟩ :=
      (chains_exact true {}).2 .sp (by simp) [0x0000, 0x8000] [0x0001, 0x0000] rfl (by decide)
    obtain ⟨-, hlt, hcarries, hs, hpv⟩ := hexact rs g h
    have hlt : Word.number rs < 0x100000000 := hlt
    have hdifference : (Word.number rs : Int) = 0x7FFFFFFF + 0x100000000 * g.c.toNat := hcarries
    have hc : g.c = false := by
      cases hc : g.c with
      | false => rfl
      | true => rw [hc, Bool.toNat_true] at hdifference; omega
    have hr : Word.number rs = 0x7FFFFFFF := by
      rw [hc, Bool.toNat_false] at hdifference
      omega
    rw [hr] at hs
    exact ⟨rs, g, h, hr, hc, hs, hpv.mpr (by decide)⟩

end Z80
