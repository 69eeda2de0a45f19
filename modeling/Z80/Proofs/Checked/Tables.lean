/-
  Z80.Proofs.Checked.Tables

  The flag tables as plain arrays.

  A table is filled place by place with checked arithmetic (`table?`) and is as long as it
  has been filled; a lookup is at a number made of the operands and fails beyond the end.
  The tables can be generated, and each lookup gives what the operation computes
  (`exists_generate`).
-/

import Z80.Proofs.Checked.Arithmetic

namespace Z80

namespace Checked

/-! ## One table -/

/-- The table whose place `i` holds `f i`, for the first `n` places. -/
def table? {α : Type} (f : Nat → Option α) : Nat → Option (Array α)
  | 0 => some #[]
  | n + 1 => do
    let t ← table? f n
    let v ← f n
    return t.push v

/-- A table whose entries can be computed can be generated, and it has a place for each. -/
theorem table?_eq {α : Type} {f : Nat → Option α} {g : Nat → α} (h : ∀ i, f i = some (g i))
    (n : Nat) : ∃ t, table? f n = some t ∧ t.size = n ∧ ∀ i < n, t[i]? = some (g i) := by
  induction n with
  | zero => exact ⟨#[], rfl, rfl, fun i hi => absurd hi (Nat.not_lt_zero i)⟩
  | succ n ih =>
    obtain ⟨t, ht, hsize, hentry⟩ := ih
    refine ⟨t.push (g n), ?_, ?_, fun i hi => ?_⟩
    · rw [table?, ht, Option.bind_eq_bind, Option.bind_some, h]
      rfl
    · rw [Array.size_push, hsize]
    · rw [Array.getElem?_push, hsize]
      split
      case isTrue hlast => rw [hlast]
      case isFalse hlast => exact hentry i (by omega)

/-- The place of two operands, `high` being a byte or the three flags that DAA reads. -/
def place (high : Nat) (low : Byte) : Nat :=
  high <<< 8 ||| low.toNat

theorem place_eq (high : Nat) (low : Byte) : place high low = 256 * high + low.toNat := by
  rw [place, ← Nat.shiftLeft_add_eq_or_of_lt low.toNat_lt, Nat.shiftLeft_eq]
  omega

theorem place_shiftRight (high : Nat) (low : Byte) : place high low >>> 8 = high := by
  have := low.toNat_lt
  rw [place_eq, Nat.shiftRight_eq_div_pow]
  omega

theorem toUInt8_place (high : Nat) (low : Byte) : (place high low).toUInt8 = low := by
  have := low.toNat_lt
  apply UInt8.toNat_inj.mp
  show place high low % 256 = low.toNat
  rw [place_eq]
  omega

theorem place_lt {high n : Nat} (low : Byte) (h : high < n) : place high low < n * 256 := by
  have := low.toNat_lt
  rw [place_eq]
  omega

/-- The table of an operation on two bytes. -/
def binary? (f : Byte → Byte → Option Flags) : Option (Array Byte) :=
  table? (fun i => (f (i >>> 8).toUInt8 i.toUInt8).map Flags.toByte) 65536

theorem exists_binary {f : Byte → Byte → Option Flags} {g : Byte → Byte → Flags}
    (h : ∀ a b, f a b = some (g a b)) :
    ∃ t, binary? f = some t ∧ ∀ a b : Byte, t[place a.toNat b]? = some (g a b).toByte := by
  have hentry (i : Nat) : (f (i >>> 8).toUInt8 i.toUInt8).map Flags.toByte =
      some (g (i >>> 8).toUInt8 i.toUInt8).toByte := by
    rw [h]
    rfl
  obtain ⟨t, ht, -, hplaces⟩ := table?_eq hentry 65536
  refine ⟨t, ht, fun a b => ?_⟩
  have ha : a.toNat.toUInt8 = a := UInt8.ofNat_toNat
  rw [hplaces _ (place_lt b a.toNat_lt), place_shiftRight, toUInt8_place, ha]

/-! ## All tables -/

/-- The tables of the arithmetic unit. -/
structure Tables where
  add : Array Byte
  adc : Array Byte
  sub : Array Byte
  sbc : Array Byte
  and : Array Byte
  or : Array Byte
  xor : Array Byte
  parity : Array Byte
  daa : Array Word

namespace Tables

/-- The flags N, C and H as a number of three bits. -/
def nch (f : Flags) : Nat :=
  (if f.n then 4 else 0) ||| (if f.c then 2 else 0) ||| (if f.h then 1 else 0)

/-- The flags held in a number of three bits; the others are clear. -/
def ofNch (k : Byte) : Flags where
  n := k.bit 2
  c := k.bit 1
  h := k.bit 0

/-- All tables, each filled to its length. -/
def generate? : Option Tables := do
  let add ← binary? fun a b => addFlags? a b false
  let adc ← binary? fun a b => addFlags? a b true
  let sub ← binary? fun a b => subFlags? a b false
  let sbc ← binary? fun a b => subFlags? a b true
  let and ← binary? fun a b => some (logicFlags (a &&& b) true)
  let or ← binary? fun a b => some (logicFlags (a ||| b) false)
  let xor ← binary? fun a b => some (logicFlags (a ^^^ b) false)
  let parity ← table? (fun i => some (Byte.evenParity i.toUInt8).toUInt8) 256
  let daa ← table? (fun i => some (FlagTables.word (Z80.daa i.toUInt8 (ofNch (i >>> 8).toUInt8))))
    (8 * 256)
  return { add, adc, sub, sbc, and, or, xor, parity, daa }

variable (t : Tables)

/-! ## Lookups -/

/-- F after adding two bytes and a carry. -/
def add? (a b : Byte) (carry : Bool) : Option Flags :=
  (if carry then t.adc[place a.toNat b]? else t.add[place a.toNat b]?).map Flags.ofByte

/-- F after subtracting a byte and a borrow. -/
def sub? (a b : Byte) (borrow : Bool) : Option Flags :=
  (if borrow then t.sbc[place a.toNat b]? else t.sub[place a.toNat b]?).map Flags.ofByte

/-- F after AND. -/
def and? (a b : Byte) : Option Flags :=
  t.and[place a.toNat b]?.map Flags.ofByte

/-- F after OR. -/
def or? (a b : Byte) : Option Flags :=
  t.or[place a.toNat b]?.map Flags.ofByte

/-- F after XOR. -/
def xor? (a b : Byte) : Option Flags :=
  t.xor[place a.toNat b]?.map Flags.ofByte

/-- The sign, zero, undocumented and parity flags of a byte. -/
def logical? (b : Byte) : Option Flags :=
  t.or? b 0

/-- Whether the number of set bits is even. -/
def evenParity? (b : Byte) : Option Bool :=
  t.parity[b.toNat]?.map (· != 0)

/-- The accumulator and F after DAA. -/
def daa? (a : Byte) (f : Flags) : Option (Byte × Flags) :=
  t.daa[place (nch f) a]?.map fun w => (w.hi, .ofByte w.lo)

/-- F after a byte `v` is moved through a port with `b` left in B, from the sum of the byte
    and a low pointer. -/
def blockIo? (b v low : Byte) : Option Flags := do
  let k ← sum? 16 v.toNat [low.toNat]
  let even ← t.evenParity? ((k.toUInt8 &&& 7) ^^^ b)
  return { Flags.ofResult b with h := 0xFF < k, pv := even, n := v.bit 7, c := 0xFF < k }

/-- Every lookup finds a place, and what the operation computes is there. -/
structure Complete : Prop where
  add : ∀ a b carry, t.add? a b carry = some (addFlags a b carry)
  sub : ∀ a b borrow, t.sub? a b borrow = some (subFlags a b borrow)
  and : ∀ a b, t.and? a b = some (logicFlags (a &&& b) true)
  or : ∀ a b, t.or? a b = some (logicFlags (a ||| b) false)
  xor : ∀ a b, t.xor? a b = some (logicFlags (a ^^^ b) false)
  evenParity : ∀ b, t.evenParity? b = some b.evenParity
  daa : ∀ a f, t.daa? a f = some (Z80.daa a f)

variable {t}

theorem Complete.logical (h : t.Complete) (b : Byte) : t.logical? b = some (Flags.ofLogical b) := by
  rw [logical?, h.or, UInt8.or_zero]
  rfl

theorem Complete.blockIo (h : t.Complete) (b v low : Byte) :
    t.blockIo? b v low = some (blockIoFlags b v (v.toNat + low.toNat)) := by
  have := v.toNat_lt
  have := low.toNat_lt
  have hk : sum? 16 v.toNat [low.toNat] = some (v.toNat + low.toNat) := sum?_one (by omega)
  rw [blockIo?, hk, Option.bind_eq_bind, Option.bind_some, h.evenParity]
  rfl

theorem nch_lt (f : Flags) : nch f < 8 := by
  rw [nch]
  cases f.n <;> cases f.c <;> cases f.h <;> decide

/-- DAA reads no other flags. -/
theorem daa_ofNch (a : Byte) (f : Flags) : Z80.daa a (ofNch (nch f).toUInt8) = Z80.daa a f := by
  have hn : (ofNch (nch f).toUInt8).n = f.n := by
    rw [nch]
    cases f.n <;> cases f.c <;> cases f.h <;> rfl
  have hc : (ofNch (nch f).toUInt8).c = f.c := by
    rw [nch]
    cases f.n <;> cases f.c <;> cases f.h <;> rfl
  have hh : (ofNch (nch f).toUInt8).h = f.h := by
    rw [nch]
    cases f.n <;> cases f.c <;> cases f.h <;> rfl
  simp only [Z80.daa, daaCorrection, hn, hc, hh]

/-- The tables can be generated, and they are complete. -/
theorem exists_generate : ∃ t, generate? = some t ∧ t.Complete := by
  obtain ⟨add, hadd, hadd'⟩ := exists_binary fun a b => addFlags?_eq a b false
  obtain ⟨adc, hadc, hadc'⟩ := exists_binary fun a b => addFlags?_eq a b true
  obtain ⟨sub, hsub, hsub'⟩ := exists_binary fun a b => subFlags?_eq a b false
  obtain ⟨sbc, hsbc, hsbc'⟩ := exists_binary fun a b => subFlags?_eq a b true
  obtain ⟨and, hand, hand'⟩ := exists_binary (g := fun a b => logicFlags (a &&& b) true)
    fun _ _ => rfl
  obtain ⟨or, hor, hor'⟩ := exists_binary (g := fun a b => logicFlags (a ||| b) false)
    fun _ _ => rfl
  obtain ⟨xor, hxor, hxor'⟩ := exists_binary (g := fun a b => logicFlags (a ^^^ b) false)
    fun _ _ => rfl
  obtain ⟨parity, hparity, -, hparity'⟩ := table?_eq
    (g := fun i => (Byte.evenParity i.toUInt8).toUInt8) (fun _ => rfl) 256
  obtain ⟨daa, hdaa, -, hdaa'⟩ := table?_eq
    (g := fun i => FlagTables.word (Z80.daa i.toUInt8 (ofNch (i >>> 8).toUInt8)))
    (fun _ => rfl) (8 * 256)
  refine ⟨⟨add, adc, sub, sbc, and, or, xor, parity, daa⟩, ?_, ?_⟩
  · simp only [generate?, hadd, hadc, hsub, hsbc, hand, hor, hxor, hparity, hdaa,
      Option.bind_eq_bind, Option.bind_some]
    rfl
  · constructor
    case add =>
      intro a b carry
      cases carry with
      | false => simp [add?, hadd']
      | true => simp [add?, hadc']
    case sub =>
      intro a b borrow
      cases borrow with
      | false => simp [sub?, hsub']
      | true => simp [sub?, hsbc']
    case and => exact fun a b => by simp [and?, hand']
    case or => exact fun a b => by simp [or?, hor']
    case xor => exact fun a b => by simp [xor?, hxor']
    case evenParity =>
      intro b
      have hb : b.toNat.toUInt8 = b := UInt8.ofNat_toNat
      rw [evenParity?, hparity' _ b.toNat_lt, hb]
      cases b.evenParity <;> rfl
    case daa =>
      intro a f
      rw [daa?, hdaa' _ (place_lt a (nch_lt f)), place_shiftRight, toUInt8_place, daa_ofNch]
      simp [FlagTables.word]

end Tables

end Checked

end Z80
