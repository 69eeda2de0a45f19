/-
  Z80.Proofs.ShiftChains

  Shifts of numbers of any length.

  A number that lies in memory is shifted to the left from its lowest cell on and to the
  right from its highest cell on: a rotation or shift of the first cell, and RL or RR of the
  others, each taking the bit that the one before has left in C (`RotOp.chain`).

  Only the first operation differs from RL and RR, and only by the bit that enters
  (`RotOp.apply_eq_rotation`).  RL of a byte is the exact sum of the byte with itself, and RR
  is what RL undoes; so both are sums with carry (`Wide.Carries`), sums of low and high parts
  make up the sum of the whole, and the numbers are read off the last sum.  The main statement
  is `longShift_exact`.
-/

import Z80.Proofs.CarryChains
import Z80.Proofs.CellSweeps

namespace Z80

/-! ## Doubling and halving -/

namespace Wide

variable {bits x r : Nat} {carry out : Bool}

theorem carries_add {base y : Nat} :
    Carries base false x y r carry out ↔ r + base * out.toNat = x + y + carry.toNat := by
  simp only [Carries, total, Bool.false_eq_true, if_false]
  exact_mod_cast Iff.rfl

theorem two_pow_eq (hbits : 0 < bits) : 2 ^ bits = 2 * 2 ^ (bits - 1) := by
  rw [← pow_succ', Nat.sub_add_cancel hbits]

/-- The top bit says whether a number is in the upper half. -/
theorem testBit_top (hbits : 0 < bits) (hx : x < 2 ^ bits) :
    x.testBit (bits - 1) = decide (2 ^ (bits - 1) ≤ x) := by
  by_cases hhalf : 2 ^ (bits - 1) ≤ x
  · rw [decide_eq_true hhalf]
    exact Nat.testBit_of_two_pow_le_and_two_pow_add_one_gt hhalf
      (by rwa [Nat.sub_add_cancel hbits])
  · rw [decide_eq_false hhalf]
    exact Nat.testBit_lt_two_pow (Nat.not_le.mp hhalf)

/-- The sum of a number with itself is its double, and the carry is its top bit. -/
theorem Carries.double (hbits : 0 < bits) (hx : x < 2 ^ bits) (hr : r < 2 ^ bits)
    (h : Carries (2 ^ bits) false x x r carry out) :
    r = (2 * x + carry.toNat) % 2 ^ bits ∧ out = x.testBit (bits - 1) := by
  have hsum : r + 2 ^ bits * out.toNat = 2 * x + carry.toNat := by
    rw [carries_add.mp h, Nat.two_mul]
  constructor
  · rw [← hsum, Nat.add_mul_mod_self_left, Nat.mod_eq_of_lt hr]
  · have hcarry := carry.toNat_le
    rw [testBit_top hbits hx]
    rw [two_pow_eq hbits] at hx hr hsum
    cases out with
    | false =>
      rw [Bool.toNat_false, Nat.mul_zero] at hsum
      exact (decide_eq_false (by omega)).symm
    | true =>
      rw [Bool.toNat_true, Nat.mul_one] at hsum
      exact (decide_eq_true (by omega)).symm

/-- What gives a number when it is added to itself is the half of the number, the carry out
    on top of it; the carry in is the bit that is lost. -/
theorem Carries.half (hbits : 0 < bits) (h : Carries (2 ^ bits) false r r x out carry) :
    r = x / 2 + carry.toNat * 2 ^ (bits - 1) ∧ out = x.testBit 0 := by
  have hsum : x + 2 * (carry.toNat * 2 ^ (bits - 1)) = 2 * r + out.toNat := by
    rw [carries_add, two_pow_eq hbits] at h
    linear_combination h
  have hout := out.toNat_le
  refine ⟨by omega, ?_⟩
  rw [Nat.testBit_zero]
  cases out with
  | false =>
    rw [Bool.toNat_false] at hsum
    exact (decide_eq_false (by omega)).symm
  | true =>
    rw [Bool.toNat_true] at hsum
    exact (decide_eq_true (by omega)).symm

/-- A number halved with its top bit kept is the half in two's complement. -/
theorem signed_half (hbits : 0 < bits) (hx : x < 2 ^ bits) :
    signed bits (x / 2 + (x.testBit (bits - 1)).toNat * 2 ^ (bits - 1)) = signed bits x / 2 := by
  rw [testBit_top hbits hx]
  have hpow := two_pow_eq hbits
  rw [hpow] at hx
  unfold signed
  by_cases hhalf : 2 ^ (bits - 1) ≤ x
  · rw [decide_eq_true hhalf, Bool.toNat_true, Nat.one_mul, if_neg (by omega), if_neg (by omega)]
    zify at hpow
    rw [hpow]
    push_cast
    omega
  · rw [decide_eq_false hhalf, Bool.toNat_false, Nat.zero_mul, Nat.add_zero, if_pos (by omega),
      if_pos (by omega)]
    omega

end Wide

/-! ## One byte -/

namespace Byte

theorem number_lt (xs : List Byte) : number xs < 2 ^ (8 * xs.length) := by
  have hlt : number xs < (2 ^ 8) ^ (xs.map UInt8.toNat).length := by
    refine Nat.ofDigits_lt_base_pow_length (by decide) fun x hx => ?_
    obtain ⟨b, -, rfl⟩ := List.mem_map.mp hx
    exact b.toNat_lt
  rwa [List.length_map, ← pow_mul] at hlt

theorem number_cons (x : Byte) (xs : List Byte) : number (x :: xs) = x.toNat + 2 ^ 8 * number xs :=
  Nat.ofDigits_cons

theorem number_concat (xs : List Byte) (x : Byte) :
    number (xs ++ [x]) = number xs + 2 ^ (8 * xs.length) * x.toNat := by
  rw [number, List.map_append, Nat.ofDigits_append, List.length_map, ← pow_mul]
  exact congrArg (fun k => number xs + 2 ^ (8 * xs.length) * k) Nat.ofDigits_singleton

/-- The top bit of a number is bit 7 of its highest byte. -/
theorem testBit_number_concat (xs : List Byte) (x : Byte) :
    (number (xs ++ [x])).testBit (8 * (xs ++ [x]).length - 1) = x.bit 7 := by
  have htop : 8 * (xs ++ [x]).length - 1 = 8 * xs.length + 7 := by
    rw [List.length_append, List.length_singleton]
    omega
  rw [number_concat, htop, Nat.add_comm, Nat.testBit_two_pow_mul_add _ (number_lt xs),
    if_neg (by omega), Nat.add_sub_cancel_left, Byte.bit]

end Byte

/-- The rotation through C that carries a shift on in a direction. -/
def Direction.rotation : Direction → RotOp
  | up => .rl
  | down => .rr

namespace RotOp

/-- Whether an operation is to the left, towards higher cells. -/
def direction : RotOp → Direction
  | rlc | rl | sla => .up
  | rrc | rr | sra | srl => .down

/-- The bit that enters a byte. -/
def entering (op : RotOp) (v : Byte) (carry : Bool) : Bool :=
  match op with
  | rlc | sra => v.bit 7
  | rrc => v.bit 0
  | rl | rr => carry
  | sla | srl => false

/-- An operation is RL or RR with another bit in the place of C. -/
theorem apply_eq_rotation (op : RotOp) (v : Byte) (carry : Bool) :
    op.apply v carry = op.direction.rotation.apply v (op.entering v carry) := by
  revert v
  rw [Byte.forall_iff]
  cases op <;> cases carry <;> decide +kernel

/-- RL adds a byte to itself. -/
theorem carries_rl (v : Byte) (carry : Bool) :
    Wide.Carries (2 ^ 8) false v.toNat v.toNat (rl.apply v carry).1.toNat carry
      (rl.apply v carry).2 := by
  rw [Wide.carries_add]
  revert v
  rw [Byte.forall_iff]
  cases carry <;> decide +kernel

/-- RL undoes RR. -/
theorem rl_rr (v : Byte) (carry : Bool) :
    rl.apply (rr.apply v carry).1 (rr.apply v carry).2 = (v, carry) := by
  revert v
  rw [Byte.forall_iff]
  cases carry <;> decide +kernel

/-- RR leaves what has to be added to itself to find the byte. -/
theorem carries_rr (v : Byte) (carry : Bool) :
    Wide.Carries (2 ^ 8) false (rr.apply v carry).1.toNat (rr.apply v carry).1.toNat v.toNat
      (rr.apply v carry).2 carry := by
  have hsum := carries_rl (rr.apply v carry).1 (rr.apply v carry).2
  rwa [rl_rr] at hsum

end RotOp

/-! ## Chains of rotations -/

namespace CellOp

/-- RL from the lowest byte on adds a number to itself. -/
theorem carries_sweep_rl (s : Byte × Bool) (vs : List Byte) :
    let r := sweep (List.replicate vs.length (.shift .rl)) s vs
    Wide.Carries (2 ^ (8 * vs.length)) false (Byte.number vs) (Byte.number vs) (Byte.number r.1)
      s.2 r.2.2 := by
  induction vs generalizing s with
  | nil => simp [sweep, Wide.Carries, Wide.total, Byte.number]
  | cons v vs ih =>
    dsimp only
    rw [List.length_cons, List.replicate_succ, sweep]
    simp only [Byte.number_cons]
    rw [Nat.mul_succ, Nat.add_comm, pow_add]
    exact (RotOp.carries_rl v s.2).append (ih _)

/-- RR from the highest byte on leaves what has to be added to itself to find the number. -/
theorem carries_sweep_rr (s : Byte × Bool) (vs : List Byte) :
    let r := sweep (List.replicate vs.length (.shift .rr)) s vs
    Wide.Carries (2 ^ (8 * vs.length)) false (Byte.number r.1.reverse) (Byte.number r.1.reverse)
      (Byte.number vs.reverse) r.2.2 s.2 := by
  induction vs generalizing s with
  | nil => simp [sweep, Wide.Carries, Wide.total, Byte.number]
  | cons v vs ih =>
    dsimp only
    rw [List.length_cons, List.replicate_succ, sweep]
    simp only [List.reverse_cons, Byte.number_concat, List.length_reverse, length_sweep]
    rw [Nat.mul_succ, pow_add]
    exact (ih _).append (RotOp.carries_rr v s.2)

end CellOp

namespace RotOp

/-- A rotation or shift of the first of `n` bytes, and RL or RR of the others. -/
def chain (first : RotOp) (n : Nat) : List RotOp :=
  first :: List.replicate (n - 1) first.direction.rotation

theorem length_chain (first : RotOp) {n : Nat} (hpos : 0 < n) : (first.chain n).length = n := by
  rw [chain, List.length_cons, List.length_replicate, Nat.sub_add_cancel hpos]

/-- The first operation makes a difference to the bit that enters only. -/
theorem sweep_chain (first : RotOp) (s : Byte × Bool) (v : Byte) (vs : List Byte) :
    CellOp.sweep ((first.chain (v :: vs).length).map .shift) s (v :: vs) =
      CellOp.sweep (List.replicate (v :: vs).length (.shift first.direction.rotation))
        (s.1, first.entering v s.2) (v :: vs) := by
  rw [chain, List.length_cons, Nat.add_sub_cancel, List.map_cons, List.map_replicate,
    List.replicate_succ, CellOp.sweep, CellOp.sweep]
  simp only [CellOp.apply, apply_eq_rotation first v s.2]

variable {first : RotOp}

/-- A chain to the left doubles the number and adds the bit that enters. -/
theorem number_chain_up (hup : first.direction = .up) (s : Byte × Bool) (v : Byte)
    (vs : List Byte) :
    let n := (v :: vs).length
    let x := Byte.number (v :: vs)
    let r := CellOp.sweep ((first.chain n).map .shift) s (v :: vs)
    Byte.number r.1 = (2 * x + (first.entering v s.2).toNat) % 2 ^ (8 * n) ∧
      r.2.2 = x.testBit (8 * n - 1) := by
  have hcarries := CellOp.carries_sweep_rl (s.1, first.entering v s.2) (v :: vs)
  have hlt := Byte.number_lt
    (CellOp.sweep (List.replicate (v :: vs).length (.shift .rl)) (s.1, first.entering v s.2)
      (v :: vs)).1
  rw [CellOp.length_sweep] at hlt
  dsimp only
  rw [first.sweep_chain, hup]
  exact hcarries.double (Nat.mul_pos (by decide) (Nat.succ_pos _)) (Byte.number_lt _) hlt

/-- A chain to the right halves the number and puts the bit that enters on top of it. -/
theorem number_chain_down (hdown : first.direction = .down) (s : Byte × Bool) (v : Byte)
    (vs : List Byte) :
    let n := (v :: vs).length
    let x := Byte.number (v :: vs).reverse
    let r := CellOp.sweep ((first.chain n).map .shift) s (v :: vs)
    Byte.number r.1.reverse = x / 2 + (first.entering v s.2).toNat * 2 ^ (8 * n - 1) ∧
      r.2.2 = x.testBit 0 := by
  have hcarries := CellOp.carries_sweep_rr (s.1, first.entering v s.2) (v :: vs)
  dsimp only
  rw [first.sweep_chain, hdown]
  exact hcarries.half (Nat.mul_pos (by decide) (Nat.succ_pos _))

/-- What a chain makes of a number of `n` bytes when C is `carry` before it and `out` after
    it. -/
structure Shifts (first : RotOp) (n x : Nat) (carry : Bool) (x' : Nat) (out : Bool) : Prop where
  rl : first = .rl → x' = (2 * x + carry.toNat) % 2 ^ (8 * n)
  sla : first = .sla → x' = 2 * x % 2 ^ (8 * n)
  rr : first = .rr → x' = x / 2 + carry.toNat * 2 ^ (8 * n - 1)
  srl : first = .srl → x' = x / 2
  sra : first = .sra → Wide.signed (8 * n) x' = Wide.signed (8 * n) x / 2
  /-- The bit that is lost is the top bit or the lowest bit. -/
  up : first.direction = .up → out = x.testBit (8 * n - 1)
  down : first.direction = .down → out = x.testBit 0

/-- Chains shift numbers of any length. -/
theorem shifts_chain (first : RotOp) (s : Byte × Bool) {vs : List Byte} (hne : vs ≠ []) :
    let r := CellOp.sweep ((first.chain vs.length).map .shift) s (first.direction.order vs)
    first.Shifts vs.length (Byte.number vs) s.2 (Byte.number (first.direction.order r.1))
      r.2.2 := by
  cases hdir : first.direction with
  | up =>
    obtain ⟨v, vs, rfl⟩ := List.exists_cons_of_ne_nil hne
    obtain ⟨hx', hout⟩ := number_chain_up hdir s v vs
    exact {
      rl := by
        rintro rfl
        exact hx'
      sla := by
        rintro rfl
        exact hx'
      rr := by
        rintro rfl
        cases hdir
      srl := by
        rintro rfl
        cases hdir
      sra := by
        rintro rfl
        cases hdir
      up := fun _ => hout
      down := fun h => by
        rw [hdir] at h
        cases h }
  | down =>
    -- the number ends with the byte that the chain starts with
    obtain ⟨v, ws, hreverse⟩ := List.exists_cons_of_ne_nil (List.reverse_ne_nil_iff.mpr hne)
    obtain rfl : vs = (v :: ws).reverse := by rw [← hreverse, List.reverse_reverse]
    obtain ⟨hx', hout⟩ := number_chain_down hdir s v ws
    dsimp only [Direction.order]
    rw [List.reverse_reverse, List.length_reverse]
    exact {
      rl := by
        rintro rfl
        cases hdir
      sla := by
        rintro rfl
        cases hdir
      rr := by
        rintro rfl
        exact hx'
      srl := by
        rintro rfl
        rw [hx', entering, Bool.toNat_false, Nat.zero_mul, Nat.add_zero]
      sra := by
        rintro rfl
        have htop := Byte.testBit_number_concat ws.reverse v
        rw [← List.reverse_cons, List.length_reverse] at htop
        have hlt := Byte.number_lt (v :: ws).reverse
        rw [List.length_reverse] at hlt
        rw [hx', entering, ← htop]
        exact Wide.signed_half (Nat.mul_pos (by decide) (Nat.succ_pos _)) hlt
      up := fun h => by
        rw [hdir] at h
        cases h
      down := fun _ => hout }

/-- The program that shifts a number of `n` bytes: the first operation and its rotations
    through (HL), with INC HL or DEC HL between them. -/
def longShift (first : RotOp) (n : Nat) : List Instr :=
  CellOp.program first.direction ((first.chain n).map .shift)

theorem length_longShift (first : RotOp) {n : Nat} (hpos : 0 < n) :
    (first.longShift n).length = 2 * n - 1 := by
  rw [longShift, CellOp.length_program, List.length_map, length_chain first hpos]

end RotOp

/-! ## Long shifts -/

namespace Machine

/-- Shifting the number in `n` cells from `a` on, from any machine: RL first doubles it and
    takes C in, SLA first doubles it; RR first halves it and takes C in on top, SRL first
    halves it, and SRA first halves it in two's complement.  C is the bit that is lost.  No
    other cell of memory and no register but HL and F changes: HL is at the last cell, and the
    program counter and R are where the fetches move them.  A machine that comes to the program
    has executed it after as many steps. -/
theorem longShift_exact {m : Machine} {a : Word} {n : Nat} {first : RotOp} {ds : List Decoded}
    (hpos : 0 < n) (hn : n ≤ 65536) (hhl : m.hl = first.direction.start a n)
    (hds : ds.map (·.instr) = first.longShift n) :
    let m' := m.executeAll ds
    first.Shifts n (Byte.number (m.mem.slice a n)) m.flags.c (Byte.number (m'.mem.slice a n))
      m'.flags.c ∧
    Space.SameOutside (Direction.up.cells a n) m.mem m'.mem ∧
    m'.hl = first.direction.along m.hl (n - 1) ∧
    m' = (m.fetchAll ds).withSwept m' ∧
    (m.Executes ds → steps (2 * n - 1) m = m') := by
  intro m'
  have hne : (first.chain n).map CellOp.shift ≠ [] := List.cons_ne_nil _ _
  have hlength : ((first.chain n).map CellOp.shift).length = n := by
    rw [List.length_map, first.length_chain hpos]
  have h := sweep_executeAll hne m hds
  obtain ⟨hsweep, hframe⟩ := h.result_buffer hlength hpos hn hhl
  refine ⟨?_, hframe, hlength ▸ h.hl_eq, executeAll_shifts m hds, fun hexecutes => ?_⟩
  · have hbytes : m.mem.slice a n ≠ [] := by
      rw [← List.length_pos_iff, Space.length_slice]
      exact hpos
    have hshifts := first.shifts_chain (m.a, m.flags.c) hbytes
    dsimp only at hshifts
    rw [Space.length_slice, hsweep, Direction.order_order] at hshifts
    exact hshifts
  · rw [← first.length_longShift hpos, ← hds, List.length_map]
    exact hexecutes.steps_eq

/-- SRA (HL), DEC HL and RR (HL) with HL at the higher byte of 8003h. -/
def halving : Machine :=
  { (atCode 0 [0xCB, 0x2E, 0x2B, 0xCB, 0x1E]).setPair (.bank .hl) 0x4001 with
    mem := (Space.zero.load 0 [0xCB, 0x2E, 0x2B, 0xCB, 0x1E]).load 0x4000 [0x03, 0x80] }

/-- The instructions of its code. -/
def halvingCode : List Decoded :=
  [⟨.rot .sra .hl none, 2, true⟩, ⟨.decPair (.bank .hl), 1, false⟩, ⟨.rot .rr .hl none, 2, true⟩]

theorem executes_halving : halving.Executes halvingCode := by
  -- the code lies apart from the cells that are shifted
  have hcurrent (k : Machine) (v : Byte) (hmem : k.mem = halving.mem.set 0x4001 v) :
      (k.pc = 2 → k.current = ⟨.decPair (.bank .hl), 1, false⟩) ∧
      (k.pc = 3 → k.current = ⟨.rot .rr .hl none, 2, true⟩) := by
    constructor
    · intro hpc
      simp [current, hpc, hmem, halving, Space.load, Space.get_set]
      rfl
    · intro hpc
      simp [current, hpc, hmem, halving, Space.load, Space.get_set]
      rfl
  refine ⟨rfl, ?_, rfl, (hcurrent _ _ rfl).1 rfl, rfl, (hcurrent _ _ rfl).2 rfl, trivial⟩
  simp [halving, current, atCode, pc, setPair, Space.load, Space.get_set, initial]
  rfl

/-- 8003h is -32765, and three steps halve it to -16383. -/
theorem longShift_exact_halving :
    Byte.number ((steps 3 halving).mem.slice 0x4000 2) = 0xC001 ∧
      (steps 3 halving).flags.c = true := by
  have hbytes : halving.mem.slice 0x4000 2 = [0x03, 0x80] := by
    simp [halving, Space.slice, Space.load, Space.get_set]
  have hhl : halving.hl = RotOp.sra.direction.start 0x4000 2 := rfl
  have hcode : halvingCode.map (·.instr) = RotOp.sra.longShift 2 := rfl
  obtain ⟨hshifts, -, -, -, hsteps⟩ := longShift_exact (by decide) (by decide) hhl hcode
  rw [← hsteps executes_halving, hbytes] at hshifts
  have hhalf : Wide.signed 16 (Byte.number ((steps 3 halving).mem.slice 0x4000 2)) = -16383 :=
    hshifts.sra rfl
  have hlt := Byte.number_lt ((steps 3 halving).mem.slice 0x4000 2)
  rw [Space.length_slice] at hlt
  refine ⟨?_, hshifts.down rfl⟩
  unfold Wide.signed at hhalf
  split at hhalf <;> omega

end Machine

end Z80
