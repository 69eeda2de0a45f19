/-
  Z80.Proofs.DigitStrings

  RLD and RRD on buffers of any length.

  Each of the two passes three digits on, in opposite directions: the low digit of A and the
  two digits of the cell.  Over the cells of a buffer the digit that A holds in between is
  the one on its way from one cell to the next, so a sweep shifts the whole string of digits
  by one place, with A at both ends.  The main statement is `digits_sweep`.
-/

import Z80.Proofs.CellSweeps

namespace Z80

/-! ## Digits -/

namespace Byte

theorem lowDigit_lt (b : Byte) : b.lowDigit.toNat < 16 := by
  rw [toNat_lowDigit]
  omega

theorem highDigit_lt (b : Byte) : b.highDigit.toNat < 16 := by
  have := b.toNat_lt
  rw [toNat_highDigit]
  omega

theorem lowDigit_ofDigits {h l : Byte} (hh : h.toNat < 16) (hl : l.toNat < 16) :
    (ofDigits h l).lowDigit = l := by
  apply UInt8.toNat_inj.mp
  rw [toNat_lowDigit, toNat_ofDigits hh hl]
  omega

theorem highDigit_ofDigits {h l : Byte} (hh : h.toNat < 16) (hl : l.toNat < 16) :
    (ofDigits h l).highDigit = h := by
  apply UInt8.toNat_inj.mp
  rw [toNat_highDigit, toNat_ofDigits hh hl]
  omega

/-- The hexadecimal digits of bytes, from the least significant on. -/
def digits (bs : List Byte) : List Byte :=
  bs.flatMap fun b => [b.lowDigit, b.highDigit]

theorem digits_cons (b : Byte) (bs : List Byte) :
    digits (b :: bs) = b.lowDigit :: b.highDigit :: digits bs := rfl

theorem digits_concat (bs : List Byte) (b : Byte) :
    digits (bs ++ [b]) = digits bs ++ [b.lowDigit, b.highDigit] := by
  rw [digits, List.flatMap_append]
  rfl

end Byte

/-! ## Sweeps of bytes -/

namespace CellOp

/-- RLD passes the low digit of A and the two digits of the byte on to the next higher
    place. -/
theorem apply_digitsLeft (s : Byte × Bool) (v : Byte) :
    let r := digitsLeft.apply s v
    r.1.lowDigit = s.1.lowDigit ∧ r.1.highDigit = v.lowDigit ∧ r.2.1.lowDigit = v.highDigit ∧
      r.2.1.highDigit = s.1.highDigit :=
  ⟨Byte.lowDigit_ofDigits v.lowDigit_lt s.1.lowDigit_lt,
    Byte.highDigit_ofDigits v.lowDigit_lt s.1.lowDigit_lt,
    Byte.lowDigit_ofDigits s.1.highDigit_lt v.highDigit_lt,
    Byte.highDigit_ofDigits s.1.highDigit_lt v.highDigit_lt⟩

/-- RRD passes the low digit of A and the two digits of the byte on to the next lower
    place. -/
theorem apply_digitsRight (s : Byte × Bool) (v : Byte) :
    let r := digitsRight.apply s v
    r.1.lowDigit = v.highDigit ∧ r.1.highDigit = s.1.lowDigit ∧ r.2.1.lowDigit = v.lowDigit ∧
      r.2.1.highDigit = s.1.highDigit :=
  ⟨Byte.lowDigit_ofDigits s.1.lowDigit_lt v.highDigit_lt,
    Byte.highDigit_ofDigits s.1.lowDigit_lt v.highDigit_lt,
    Byte.lowDigit_ofDigits s.1.highDigit_lt v.lowDigit_lt,
    Byte.highDigit_ofDigits s.1.highDigit_lt v.lowDigit_lt⟩

/-- RLD from the lowest byte on: the low digit of A enters at the bottom and the top digit
    is left in A. -/
theorem sweep_digitsLeft (s : Byte × Bool) (vs : List Byte) :
    let r := sweep (List.replicate vs.length digitsLeft) s vs
    Byte.digits r.1 ++ [r.2.1.lowDigit] = s.1.lowDigit :: Byte.digits vs ∧
      r.2.1.highDigit = s.1.highDigit ∧ r.2.2 = s.2 := by
  induction vs generalizing s with
  | nil => exact ⟨rfl, rfl, rfl⟩
  | cons v vs ih =>
    obtain ⟨hlow, hhigh, hpassed, hkept⟩ := apply_digitsLeft s v
    obtain ⟨hdigits, hrest, hcarry⟩ := ih (digitsLeft.apply s v).2
    dsimp only
    rw [List.length_cons, List.replicate_succ, sweep]
    refine ⟨?_, hrest.trans hkept, hcarry⟩
    rw [Byte.digits_cons, Byte.digits_cons, List.cons_append, List.cons_append, hdigits, hlow,
      hhigh, hpassed]

/-- RRD from the highest byte on: the low digit of A enters at the top and the bottom digit
    is left in A. -/
theorem sweep_digitsRight (s : Byte × Bool) (vs : List Byte) :
    let r := sweep (List.replicate vs.length digitsRight) s vs
    r.2.1.lowDigit :: Byte.digits r.1.reverse = Byte.digits vs.reverse ++ [s.1.lowDigit] ∧
      r.2.1.highDigit = s.1.highDigit ∧ r.2.2 = s.2 := by
  induction vs generalizing s with
  | nil => exact ⟨rfl, rfl, rfl⟩
  | cons v vs ih =>
    obtain ⟨hlow, hhigh, hpassed, hkept⟩ := apply_digitsRight s v
    obtain ⟨hdigits, hrest, hcarry⟩ := ih (digitsRight.apply s v).2
    dsimp only
    rw [List.length_cons, List.replicate_succ, sweep]
    refine ⟨?_, hrest.trans hkept, hcarry⟩
    rw [List.reverse_cons, List.reverse_cons, Byte.digits_concat, Byte.digits_concat,
      ← List.cons_append, hdigits, hlow, hhigh, hpassed, List.append_assoc, List.append_assoc]
    rfl

end CellOp

/-! ## Sweeps of the machine -/

namespace Sweep

variable {dir : Direction} {op : CellOp} {n : Nat} {m m' : Machine} {a : Word}

/-- F after RLD and RRD: S, Z, P/V and the undocumented flags describe A. -/
theorem flags_digits (h : Sweep dir (List.replicate n op) m m')
    (hop : op = .digitsLeft ∨ op = .digitsRight) :
    m'.flags = { Flags.ofLogical m'.a with c := m'.flags.c } := by
  obtain ⟨op', hmem, s, v, hstate, hflags⟩ := h.exists_last
  obtain rfl := List.eq_of_mem_replicate hmem
  have ha : m'.a = (op'.apply s v).2.1 := congrArg Prod.fst hstate
  rw [hflags, ha]
  obtain rfl | rfl := hop
  · rfl
  · rfl

/-- RLD on `n` cells from the lowest on. -/
theorem digits_left (h : Sweep .up (List.replicate n .digitsLeft) m m') (hpos : 0 < n)
    (hn : n ≤ 65536) (hhl : m.hl = Direction.up.start a n) :
    Byte.digits (m'.mem.slice a n) ++ [m'.a.lowDigit] =
        m.a.lowDigit :: Byte.digits (m.mem.slice a n) ∧
      m'.a.highDigit = m.a.highDigit ∧ m'.flags.c = m.flags.c ∧
      Space.SameOutside (Direction.up.cells a n) m.mem m'.mem := by
  obtain ⟨hsweep, hframe⟩ := h.result_buffer List.length_replicate hpos hn hhl
  have hdigits := CellOp.sweep_digitsLeft (m.a, m.flags.c) (m.mem.slice a n)
  dsimp only [Direction.order] at hsweep
  rw [Space.length_slice, hsweep] at hdigits
  exact ⟨hdigits.1, hdigits.2.1, hdigits.2.2, hframe⟩

/-- RRD on `n` cells from the highest on. -/
theorem digits_right (h : Sweep .down (List.replicate n .digitsRight) m m') (hpos : 0 < n)
    (hn : n ≤ 65536) (hhl : m.hl = Direction.down.start a n) :
    m'.a.lowDigit :: Byte.digits (m'.mem.slice a n) =
        Byte.digits (m.mem.slice a n) ++ [m.a.lowDigit] ∧
      m'.a.highDigit = m.a.highDigit ∧ m'.flags.c = m.flags.c ∧
      Space.SameOutside (Direction.up.cells a n) m.mem m'.mem := by
  obtain ⟨hsweep, hframe⟩ := h.result_buffer List.length_replicate hpos hn hhl
  have hdigits := CellOp.sweep_digitsRight (m.a, m.flags.c) (m.mem.slice a n).reverse
  dsimp only [Direction.order] at hsweep
  rw [List.length_reverse, Space.length_slice, hsweep] at hdigits
  simp only [List.reverse_reverse] at hdigits
  exact ⟨hdigits.1, hdigits.2.1, hdigits.2.2, hframe⟩

end Sweep

/-- What RLD and RRD over a buffer have in common: the high digit of A, C and the other
    cells stay, and the other flags describe A. -/
structure Machine.DigitsPassed (m : Machine) (cells : List Word) (m' : Machine) : Prop where
  high : m'.a.highDigit = m.a.highDigit
  flags : m'.flags = {
    s := m'.a.bit 7, z := m'.a == 0, y := m'.a.bit 5, h := false, x := m'.a.bit 3,
    pv := m'.a.evenParity, n := false, c := m.flags.c }
  mem : Space.SameOutside cells m.mem m'.mem

/-- Over a buffer of `n` cells from `a` on, RLD from the lowest cell on shifts the string of
    its digits to the left, and RRD from the highest cell on shifts it to the right.  The low
    digit of A enters at one end, and the digit at the other end is left in A. -/
theorem digits_sweep (m : Machine) (a : Word) {n : Nat} (hpos : 0 < n) (hn : n ≤ 65536) :
    (m.hl = Direction.up.start a n →
      (∃ m', Sweep .up (List.replicate n .digitsLeft) m m') ∧
      ∀ m', Sweep .up (List.replicate n .digitsLeft) m m' →
        Byte.digits (m'.mem.slice a n) ++ [m'.a.lowDigit] =
          m.a.lowDigit :: Byte.digits (m.mem.slice a n) ∧
        m.DigitsPassed (Direction.up.cells a n) m') ∧
    (m.hl = Direction.down.start a n →
      (∃ m', Sweep .down (List.replicate n .digitsRight) m m') ∧
      ∀ m', Sweep .down (List.replicate n .digitsRight) m m' →
        m'.a.lowDigit :: Byte.digits (m'.mem.slice a n) =
          Byte.digits (m.mem.slice a n) ++ [m.a.lowDigit] ∧
        m.DigitsPassed (Direction.up.cells a n) m') := by
  have hne (op : CellOp) : List.replicate n op ≠ [] := by
    rw [ne_eq, List.replicate_eq_nil_iff]
    omega
  refine ⟨fun hhl => ⟨exists_sweep _ (hne _) m, fun m' h => ?_⟩,
    fun hhl => ⟨exists_sweep _ (hne _) m, fun m' h => ?_⟩⟩
  · obtain ⟨hdigits, hhigh, hc, hframe⟩ := h.digits_left hpos hn hhl
    exact ⟨hdigits, hhigh, hc ▸ h.flags_digits (.inl rfl), hframe⟩
  · obtain ⟨hdigits, hhigh, hc, hframe⟩ := h.digits_right hpos hn hhl
    exact ⟨hdigits, hhigh, hc ▸ h.flags_digits (.inr rfl), hframe⟩

/-- 4321h in two cells and 7Ah in A: RLD leaves 321Ah in them and 74h in A, and RRD leaves
    A432h and 71h. -/
theorem digits_sweep_both :
    ∃ m : Machine, m.mem.slice 0x4000 2 = [0x21, 0x43] ∧ m.a = 0x7A ∧
      (∃ m', Sweep .up [.digitsLeft, .digitsLeft] (m.setPair (.bank .hl) 0x4000) m' ∧
        Byte.digits (m'.mem.slice 0x4000 2) = [0xA, 1, 2, 3] ∧ m'.a.lowDigit = 4 ∧
        m'.a.highDigit = 7) ∧
      ∃ m', Sweep .down [.digitsRight, .digitsRight] (m.setPair (.bank .hl) 0x4001) m' ∧
        Byte.digits (m'.mem.slice 0x4000 2) = [2, 3, 4, 0xA] ∧ m'.a.lowDigit = 1 ∧
        m'.a.highDigit = 7 := by
  let m := { Machine.initial {} with mem := Space.zero.load 0x4000 [0x21, 0x43] }.setA 0x7A
  have hbytes : m.mem.slice 0x4000 2 = [0x21, 0x43] := by
    simp [m, Space.slice, Space.load, Space.get_set]
  have hhl (w : Word) : (m.setPair (.bank .hl) w).hl = w :=
    (Machine.pair_setPair _ _ (.bank .hl) _).trans (if_pos rfl)
  have hstart (w : Word) : (m.setPair (.bank .hl) w).mem.slice 0x4000 2 = [0x21, 0x43] ∧
      (m.setPair (.bank .hl) w).a = 0x7A := ⟨hbytes, rfl⟩
  refine ⟨m, hbytes, rfl, ?_, ?_⟩
  · obtain ⟨hbytes, ha⟩ := hstart 0x4000
    obtain ⟨⟨m', h⟩, hexact⟩ :=
      (digits_sweep (m.setPair (.bank .hl) 0x4000) 0x4000 (n := 2) (by decide) (by decide)).1
        (hhl 0x4000)
    obtain ⟨hdigits, hhigh, -⟩ := hexact m' h
    rw [hbytes, ha] at hdigits
    rw [ha] at hhigh
    have hends : Byte.lowDigit 0x7A :: Byte.digits [0x21, 0x43] = [0xA, 1, 2, 3] ++ [4] := by
      decide
    obtain ⟨hstring, hlow⟩ := List.append_inj' (hdigits.trans hends) rfl
    exact ⟨m', h, hstring, List.singleton_inj.mp hlow, hhigh.trans (by decide)⟩
  · obtain ⟨hbytes, ha⟩ := hstart 0x4001
    obtain ⟨⟨m', h⟩, hexact⟩ :=
      (digits_sweep (m.setPair (.bank .hl) 0x4001) 0x4000 (n := 2) (by decide) (by decide)).2
        (hhl 0x4001)
    obtain ⟨hdigits, hhigh, -⟩ := hexact m' h
    rw [hbytes, ha] at hdigits
    rw [ha] at hhigh
    have hends : Byte.digits [0x21, 0x43] ++ [Byte.lowDigit 0x7A] = 1 :: [2, 3, 4, 0xA] := by
      decide
    obtain ⟨hlow, hstring⟩ := List.cons_eq_cons.mp (hdigits.trans hends)
    exact ⟨m', h, hstring, hlow, hhigh.trans (by decide)⟩

end Z80
