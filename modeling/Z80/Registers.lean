/-
  Z80.Registers

  The register file: two banks of eight 8-bit registers, the index registers
  IX and IY, the stack pointer, the program counter, the interrupt page I, the
  refresh counter R and the two interrupt flip-flops.

  A bank is read and written byte by byte or as pairs; the index registers are
  words whose halves can be used as bytes.  The `get`/`set` lemmas say that the
  views agree: a pair is 256 times its high register plus its low register, and
  a write changes what it names and nothing else.
-/

import Z80.Flags

namespace Z80

/-! ## Names -/

/-- The 8-bit registers of a bank. -/
inductive Reg8 where
  | b | c | d | e | h | l | a | f
  deriving DecidableEq, Repr

/-- The register pairs of a bank. -/
inductive Reg16 where
  | bc | de | hl | af
  deriving DecidableEq, Repr

namespace Reg16

/-- The register in the high byte of a pair. -/
def high : Reg16 → Reg8
  | bc => .b
  | de => .d
  | hl => .h
  | af => .a

/-- The register in the low byte of a pair. -/
def low : Reg16 → Reg8
  | bc => .c
  | de => .e
  | hl => .l
  | af => .f

end Reg16

/-- The index registers. -/
inductive Index where
  | ix | iy
  deriving DecidableEq, Repr

/-! ## A bank -/

/-- One bank of general registers.  F is kept as its flags. -/
structure Bank where
  a : Byte
  f : Flags
  b : Byte
  c : Byte
  d : Byte
  e : Byte
  h : Byte
  l : Byte
  deriving DecidableEq, Inhabited

namespace Bank

/-- The byte in a register. -/
def get (k : Bank) : Reg8 → Byte
  | .b => k.b
  | .c => k.c
  | .d => k.d
  | .e => k.e
  | .h => k.h
  | .l => k.l
  | .a => k.a
  | .f => k.f.toByte

/-- The bank with one register replaced. -/
def set (k : Bank) (r : Reg8) (v : Byte) : Bank :=
  match r with
  | .b => { k with b := v }
  | .c => { k with c := v }
  | .d => { k with d := v }
  | .e => { k with e := v }
  | .h => { k with h := v }
  | .l => { k with l := v }
  | .a => { k with a := v }
  | .f => { k with f := .ofByte v }

/-- The word in a register pair. -/
def pair (k : Bank) (rr : Reg16) : Word :=
  Word.ofBytes (k.get rr.high) (k.get rr.low)

/-- The bank with both registers of a pair replaced. -/
def setPair (k : Bank) (rr : Reg16) (w : Word) : Bank :=
  (k.set rr.high w.hi).set rr.low w.lo

theorem get_set (k : Bank) (r q : Reg8) (v : Byte) :
    (k.set r v).get q = if q = r then v else k.get q := by
  cases r <;> cases q <;> simp [set, get]

theorem get_setPair (k : Bank) (rr : Reg16) (w : Word) (q : Reg8) :
    (k.setPair rr w).get q =
      if q = rr.high then w.hi else if q = rr.low then w.lo else k.get q := by
  cases rr <;> cases q <;> simp [setPair, set, get, Reg16.high, Reg16.low]

theorem pair_setPair (k : Bank) (rr ss : Reg16) (w : Word) :
    (k.setPair rr w).pair ss = if ss = rr then w else k.pair ss := by
  cases rr <;> cases ss <;> simp [setPair, pair, set, get, Reg16.high, Reg16.low]

/-- A bank is determined by its eight bytes. -/
theorem ext_get {k m : Bank} (h : ∀ r, k.get r = m.get r) : k = m := by
  obtain ⟨a, f, b, c, d, e, h', l⟩ := k
  obtain ⟨a', f', b', c', d', e', h'', l'⟩ := m
  have ha := h .a
  have hf := congrArg Flags.ofByte (h .f)
  have hb := h .b
  have hc := h .c
  have hd := h .d
  have he := h .e
  have hh := h .h
  have hl := h .l
  simp only [get, Flags.ofByte_toByte] at ha hf hb hc hd he hh hl
  subst ha hf hb hc hd he hh hl
  rfl

end Bank

/-! ## The register file -/

/-- All registers but the interrupt mode and the halt latch. -/
structure Registers where
  main : Bank
  shadow : Bank
  ix : Word
  iy : Word
  sp : Word
  pc : Word
  i : Byte
  r : Byte
  iff1 : Bool
  iff2 : Bool
  deriving DecidableEq, Inhabited

namespace Registers

/-- The registers at power-on: the banks, IX, IY and SP hold ones. -/
def initial : Registers where
  main := ⟨0xFF, .ofByte 0xFF, 0xFF, 0xFF, 0xFF, 0xFF, 0xFF, 0xFF⟩
  shadow := ⟨0xFF, .ofByte 0xFF, 0xFF, 0xFF, 0xFF, 0xFF, 0xFF, 0xFF⟩
  ix := 0xFFFF
  iy := 0xFFFF
  sp := 0xFFFF
  pc := 0
  i := 0
  r := 0
  iff1 := false
  iff2 := false

/-- The word in an index register. -/
def index (k : Registers) : Index → Word
  | .ix => k.ix
  | .iy => k.iy

/-- The registers with one index register replaced. -/
def setIndex (k : Registers) (x : Index) (w : Word) : Registers :=
  match x with
  | .ix => { k with ix := w }
  | .iy => { k with iy := w }

/-- The high half of an index register. -/
def indexHigh (k : Registers) (x : Index) : Byte :=
  (k.index x).hi

/-- The low half of an index register. -/
def indexLow (k : Registers) (x : Index) : Byte :=
  (k.index x).lo

/-- The registers with the high half of an index register replaced. -/
def setIndexHigh (k : Registers) (x : Index) (v : Byte) : Registers :=
  k.setIndex x (Word.ofBytes v (k.indexLow x))

/-- The registers with the low half of an index register replaced. -/
def setIndexLow (k : Registers) (x : Index) (v : Byte) : Registers :=
  k.setIndex x (Word.ofBytes (k.indexHigh x) v)

/-- EX AF,AF': the accumulator and flags change places with their shadows. -/
def exchangeAf (k : Registers) : Registers :=
  { k with
    main := { k.main with a := k.shadow.a, f := k.shadow.f }
    shadow := { k.shadow with a := k.main.a, f := k.main.f } }

/-- EXX: BC, DE and HL change places with their shadows. -/
def exchangeMain (k : Registers) : Registers :=
  { k with
    main := { k.shadow with a := k.main.a, f := k.main.f }
    shadow := { k.main with a := k.shadow.a, f := k.shadow.f } }

/-- R after one opcode fetch: the low seven bits count up, bit 7 stays. -/
def refreshed (r : Byte) : Byte :=
  (r &&& 0x80) ||| ((r + 1) &&& 0x7F)

/-- The registers after one opcode fetch, as far as R is concerned. -/
def refresh (k : Registers) : Registers :=
  { k with r := refreshed k.r }

theorem index_setIndex (k : Registers) (x y : Index) (w : Word) :
    (k.setIndex x w).index y = if y = x then w else k.index y := by
  cases x <;> cases y <;> rfl

theorem bit_seven_refreshed (r : Byte) : (refreshed r).bit 7 = r.bit 7 := by
  revert r
  rw [Byte.forall_iff]
  decide +kernel

theorem refreshed_mod (r : Byte) : (refreshed r).toNat % 128 = (r.toNat + 1) % 128 := by
  revert r
  rw [Byte.forall_iff]
  decide +kernel

end Registers

end Z80
