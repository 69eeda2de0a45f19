/-
  Z80.FlagTables

  The results of the 8-bit arithmetic unit laid out as tables.  A binary table
  has an entry for each pair of operands, at 256 times the first plus the
  second, and the entry is the complete F; the table for DAA has one for each
  accumulator and setting of N, C and H, and its entries are words with the new
  accumulator above the new F.

  Each lookup gives what the operation itself computes (`addEntry_generate` and its
  kin, `daaEntry_generate`), so a table may stand for the computation anywhere.
-/

import Z80.Arithmetic.Bytes

namespace Z80

/-- The tables of the arithmetic unit. -/
structure FlagTables where
  add : Vector Byte 65536
  adc : Vector Byte 65536
  sub : Vector Byte 65536
  sbc : Vector Byte 65536
  and : Vector Byte 65536
  or : Vector Byte 65536
  xor : Vector Byte 65536
  /-- One for an even number of set bits, else zero. -/
  parity : Vector Byte 256
  daa : Vector Word 2048

namespace FlagTables

/-! ## Keys -/

/-- The place of a pair of operands in a binary table. -/
def key (a b : Byte) : Fin 65536 :=
  ⟨a.toNat * 256 + b.toNat, by have := a.toNat_lt; have := b.toNat_lt; omega⟩

/-- The operands at a place of a binary table. -/
def operands (k : Fin 65536) : Byte × Byte :=
  ((k.val / 256).toUInt8, k.val.toUInt8)

theorem operands_key (a b : Byte) : operands (key a b) = (a, b) := by
  have ha := a.toNat_lt
  have hb := b.toNat_lt
  simp only [operands, key, Prod.mk.injEq, ← UInt8.toNat_inj]
  constructor
  · show (a.toNat * 256 + b.toNat) / 256 % 256 = a.toNat
    omega
  · show (a.toNat * 256 + b.toNat) % 256 = b.toNat
    omega

/-- The place of an accumulator and the flags N, C and H in the table for DAA. -/
def daaKey (a : Byte) (n c h : Bool) : Fin 2048 :=
  ⟨(n.toNat * 4 + c.toNat * 2 + h.toNat) * 256 + a.toNat, by
    have := a.toNat_lt
    have := n.toNat_le
    have := c.toNat_le
    have := h.toNat_le
    omega⟩

/-- The accumulator at a place of the table for DAA. -/
def daaAccumulator (k : Fin 2048) : Byte :=
  k.val.toUInt8

/-- The flags at a place of the table for DAA; the others are clear. -/
def daaFlags (k : Fin 2048) : Flags where
  n := k.val.testBit 10
  c := k.val.testBit 9
  h := k.val.testBit 8

/-! ## Generation -/

/-- The table of an operation on two bytes. -/
def binary (f : Byte → Byte → Flags) : Vector Byte 65536 :=
  .ofFn fun k => (f (operands k).1 (operands k).2).toByte

/-- The word with the accumulator above F. -/
def word (af : Byte × Flags) : Word :=
  Word.ofBytes af.1 af.2.toByte

/-- All tables. -/
def generate (_ : Unit) : FlagTables where
  add := binary fun a b => addFlags a b false
  adc := binary fun a b => addFlags a b true
  sub := binary fun a b => subFlags a b false
  sbc := binary fun a b => subFlags a b true
  and := binary fun a b => logicFlags (a &&& b) true
  or := binary fun a b => logicFlags (a ||| b) false
  xor := binary fun a b => logicFlags (a ^^^ b) false
  parity := .ofFn fun k => (Byte.evenParity (UInt8.ofFin k)).toUInt8
  daa := .ofFn fun k => word (Z80.daa (daaAccumulator k) (daaFlags k))

/-! ## Lookups -/

/-- F after adding two bytes and a carry. -/
def addEntry (t : FlagTables) (a b : Byte) (carry : Bool) : Byte :=
  if carry then t.adc.get (key a b) else t.add.get (key a b)

/-- F after subtracting a byte and a borrow. -/
def subEntry (t : FlagTables) (a b : Byte) (borrow : Bool) : Byte :=
  if borrow then t.sbc.get (key a b) else t.sub.get (key a b)

/-- F after AND. -/
def andEntry (t : FlagTables) (a b : Byte) : Byte :=
  t.and.get (key a b)

/-- F after OR. -/
def orEntry (t : FlagTables) (a b : Byte) : Byte :=
  t.or.get (key a b)

/-- F after XOR. -/
def xorEntry (t : FlagTables) (a b : Byte) : Byte :=
  t.xor.get (key a b)

/-- The sign, zero, undocumented and parity flags of a byte. -/
def logicalEntry (t : FlagTables) (b : Byte) : Byte :=
  t.orEntry b 0

/-- Whether the number of set bits is even. -/
def parityEntry (t : FlagTables) (b : Byte) : Bool :=
  t.parity.get b.toFin != 0

/-- The accumulator and F after DAA. -/
def daaEntry (t : FlagTables) (a : Byte) (f : Flags) : Word :=
  t.daa.get (daaKey a f.n f.c f.h)

/-! ## What the lookups give -/

theorem get_binary (f : Byte → Byte → Flags) (a b : Byte) :
    (binary f).get (key a b) = (f a b).toByte := by
  have h : (binary f).get (key a b)
      = (f (operands (key a b)).1 (operands (key a b)).2).toByte :=
    Vector.getElem_ofFn ..
  rw [h, operands_key]

theorem addEntry_generate (a b : Byte) (carry : Bool) :
    (generate ()).addEntry a b carry = (addFlags a b carry).toByte := by
  cases carry <;> simp [addEntry, generate, get_binary]

theorem subEntry_generate (a b : Byte) (borrow : Bool) :
    (generate ()).subEntry a b borrow = (subFlags a b borrow).toByte := by
  cases borrow <;> simp [subEntry, generate, get_binary]

theorem andEntry_generate (a b : Byte) :
    (generate ()).andEntry a b = (logicFlags (a &&& b) true).toByte := by
  simp [andEntry, generate, get_binary]

theorem orEntry_generate (a b : Byte) :
    (generate ()).orEntry a b = (logicFlags (a ||| b) false).toByte := by
  simp [orEntry, generate, get_binary]

theorem xorEntry_generate (a b : Byte) :
    (generate ()).xorEntry a b = (logicFlags (a ^^^ b) false).toByte := by
  simp [xorEntry, generate, get_binary]

/-- The place of an accumulator and its flags holds them again. -/
theorem daaPlace_daaKey (a : Byte) (n c h : Bool) :
    daaAccumulator (daaKey a n c h) = a ∧ daaFlags (daaKey a n c h) = { n, c, h } := by
  have := a.toNat_lt
  have := n.toNat_le
  have := c.toNat_le
  have := h.toNat_le
  have hset (b : Bool) : decide (b.toNat = 1) = b := by cases b <;> rfl
  constructor
  · apply UInt8.toNat_inj.mp
    show ((n.toNat * 4 + c.toNat * 2 + h.toNat) * 256 + a.toNat) % 256 = a.toNat
    omega
  · have hn : ((n.toNat * 4 + c.toNat * 2 + h.toNat) * 256 + a.toNat) / 2 ^ 10 % 2 = n.toNat := by
      omega
    have hc : ((n.toNat * 4 + c.toNat * 2 + h.toNat) * 256 + a.toNat) / 2 ^ 9 % 2 = c.toNat := by
      omega
    have hh : ((n.toNat * 4 + c.toNat * 2 + h.toNat) * 256 + a.toNat) / 2 ^ 8 % 2 = h.toNat := by
      omega
    simp only [daaFlags, daaKey, Nat.testBit_eq_decide_div_mod_eq, hn, hc, hh, hset]

/-- DAA looks at the accumulator, N, C and H only. -/
theorem daaEntry_generate (a : Byte) (f : Flags) :
    (generate ()).daaEntry a f = word (Z80.daa a f) := by
  obtain ⟨ha, hf⟩ := daaPlace_daaKey a f.n f.c f.h
  have hentry : (generate ()).daaEntry a f =
      word (Z80.daa (daaAccumulator (daaKey a f.n f.c f.h)) (daaFlags (daaKey a f.n f.c f.h))) :=
    Vector.getElem_ofFn ..
  rw [hentry, ha, hf]
  rfl

end FlagTables

end Z80
