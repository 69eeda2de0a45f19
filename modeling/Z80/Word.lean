/-
  Z80.Word

  Bytes and 16-bit words: splitting a word into its halves, joining two bytes,
  signed displacements, single bits and parity.  Words are addresses, port
  numbers and register pairs alike, and all arithmetic on them wraps.
-/

namespace Z80

/-- An 8-bit value. -/
abbrev Byte := UInt8

/-- A 16-bit value: an address, a port number or a register pair. -/
abbrev Word := UInt16

/-! ## Halves of a word -/

namespace Word

/-- The word with high byte `h` and low byte `l`. -/
def ofBytes (h l : Byte) : Word :=
  h.toUInt16 * 256 + l.toUInt16

/-- The high byte. -/
def hi (w : Word) : Byte :=
  (w / 256).toUInt8

/-- The low byte. -/
def lo (w : Word) : Byte :=
  w.toUInt8

theorem toNat_ofBytes (h l : Byte) : (ofBytes h l).toNat = h.toNat * 256 + l.toNat := by
  have := h.toNat_lt
  have := l.toNat_lt
  simp only [ofBytes, UInt16.toNat_add, UInt16.toNat_mul, UInt8.toNat_toUInt16, UInt16.reduceToNat]
  omega

theorem toNat_hi (w : Word) : (hi w).toNat = w.toNat / 256 := by
  have := w.toNat_lt
  simp only [hi, UInt16.toNat_toUInt8, UInt16.toNat_div, UInt16.reduceToNat]
  omega

theorem toNat_lo (w : Word) : (lo w).toNat = w.toNat % 256 := by
  simp [lo]

@[simp] theorem hi_ofBytes (h l : Byte) : hi (ofBytes h l) = h := by
  have := l.toNat_lt
  apply UInt8.toNat_inj.mp
  rw [toNat_hi, toNat_ofBytes]
  omega

@[simp] theorem lo_ofBytes (h l : Byte) : lo (ofBytes h l) = l := by
  have := l.toNat_lt
  apply UInt8.toNat_inj.mp
  rw [toNat_lo, toNat_ofBytes]
  omega

@[simp] theorem ofBytes_hi_lo (w : Word) : ofBytes (hi w) (lo w) = w := by
  apply UInt16.toNat_inj.mp
  rw [toNat_ofBytes, toNat_hi, toNat_lo]
  omega

/-! ## Displacements -/

/-- The word moved by a signed displacement, modulo 2^16. -/
def displace (w : Word) (d : Int8) : Word :=
  w + d.toInt16.toUInt16

/-- Displacing adds the signed displacement modulo 2^16. -/
theorem toNat_displace (w : Word) (d : Int8) :
    ((displace w d).toNat : Int) = ((w.toNat : Int) + d.toInt) % 65536 := by
  have hd : ((d.toInt16.toUInt16.toNat : Nat) : Int) = d.toInt16.toInt % 65536 := by
    have hbits : d.toInt16.toInt = d.toInt16.toUInt16.toBitVec.toInt := rfl
    have hnat : d.toInt16.toUInt16.toNat = d.toInt16.toUInt16.toBitVec.toNat := rfl
    have := d.toInt16.toUInt16.toBitVec.isLt
    rw [hbits, hnat, BitVec.toInt_eq_toNat_cond]
    split <;> omega
  rw [Int8.toInt_toInt16] at hd
  rw [displace, UInt16.toNat_add]
  omega

end Word

/-! ## Bits of a byte -/

namespace Byte

/-- Bit `i`, counting from the least significant. -/
def bit (b : Byte) (i : Nat) : Bool :=
  b.toNat.testBit i

/-- The number of set bits. -/
def popCount (b : Byte) : Nat :=
  (b.bit 0).toNat + (b.bit 1).toNat + (b.bit 2).toNat + (b.bit 3).toNat +
  (b.bit 4).toNat + (b.bit 5).toNat + (b.bit 6).toNat + (b.bit 7).toNat

/-- Whether the number of set bits is even. -/
def evenParity (b : Byte) : Bool :=
  b.popCount % 2 == 0

/-- The high digit, 0 to 15. -/
def highDigit (b : Byte) : Byte :=
  b / 16

/-- The low digit, 0 to 15. -/
def lowDigit (b : Byte) : Byte :=
  b % 16

/-- The byte with high digit `h` and low digit `l`. -/
def ofDigits (h l : Byte) : Byte :=
  h * 16 + l

theorem toNat_highDigit (b : Byte) : b.highDigit.toNat = b.toNat / 16 := by
  simp [highDigit]

theorem toNat_lowDigit (b : Byte) : b.lowDigit.toNat = b.toNat % 16 := by
  simp [lowDigit]

theorem toNat_ofDigits {h l : Byte} (hh : h.toNat < 16) (hl : l.toNat < 16) :
    (ofDigits h l).toNat = h.toNat * 16 + l.toNat := by
  simp only [ofDigits, UInt8.toNat_add, UInt8.toNat_mul, UInt8.reduceToNat]
  omega

/-- A property of all bytes holds when it holds of the 256 values. -/
theorem forall_iff {p : Byte → Prop} : (∀ b, p b) ↔ ∀ i : Fin 256, p (UInt8.ofFin i) :=
  ⟨fun h _ => h _, fun h b => by simpa using h b.toFin⟩

end Byte

end Z80
