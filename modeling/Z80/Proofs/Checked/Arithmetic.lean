/-
  Z80.Proofs.Checked.Arithmetic

  Arithmetic that fails where it leaves its width.

  The flags need carries, and carries need sums beyond the byte or word that is kept.  Here
  each of these sums is taken at a width of its own, operand by operand, and there is no
  result as soon as one does not fit (`sum?`); the same goes for a difference below zero
  (`difference?`) and for a bit that the byte has not (`mask?`).  The flag computations done
  this way always have a result, and it is that of the machine (`addFlags?_eq` and its kin).
-/

import Mathlib.Algebra.GroupWithZero.Nat
import Z80.Arithmetic.Words
import Z80.Proofs.ExactArithmetic

namespace Z80

/-! ## Checked operations -/

namespace Checked

/-- A number, if it fits `w` bits. -/
def fit? (w n : Nat) : Option Nat :=
  if n < 2 ^ w then some n else none

/-- A sum of numbers from left to right, if it fits `w` bits after each of them. -/
def sum? (w s : Nat) : List Nat → Option Nat
  | [] => some s
  | n :: ns => do
    let s ← fit? w (s + n)
    sum? w s ns

/-- A difference, if it is not below zero. -/
def difference? (a b : Nat) : Option Nat :=
  if b ≤ a then some (a - b) else none

/-- The byte with only bit `n` set, if a byte has that bit. -/
def mask? (n : Nat) : Option Byte :=
  if n < 8 then some (1 <<< n.toUInt8) else none

/-- A sum that fits its width has fitted all along. -/
theorem sum?_eq {w s : Nat} {ns : List Nat} (h : s + ns.sum < 2 ^ w) :
    sum? w s ns = some (s + ns.sum) := by
  induction ns generalizing s with
  | nil => rfl
  | cons n ns ih =>
    rw [List.sum_cons, ← Nat.add_assoc] at h
    have hfirst : fit? w (s + n) = some (s + n) := if_pos (by omega)
    rw [sum?, hfirst, Option.bind_eq_bind, Option.bind_some, ih h, List.sum_cons, Nat.add_assoc]

example : sum? 8 0xF0 [0x0F, 1] = none := rfl

theorem sum?_one {w s n : Nat} (h : s + n < 2 ^ w) : sum? w s [n] = some (s + n) :=
  sum?_eq h

theorem sum?_two {w s n k : Nat} (h : s + n + k < 2 ^ w) : sum? w s [n, k] = some (s + n + k) := by
  rw [Nat.add_assoc] at h ⊢
  exact sum?_eq h

theorem difference?_eq {a b : Nat} (h : b ≤ a) : difference? a b = some (a - b) :=
  if_pos h

theorem mask?_eq (n : Fin 8) : mask? n = some (1 <<< n.val.toUInt8) :=
  if_pos n.isLt

end Checked

open Checked

/-! ## Bytes -/

/-- The half carry of a sum with result `r`.  Without a carry in, the low digit of the result
    shows it and no sum is needed. -/
def halfCarry? (a b r : Byte) (carry : Bool) : Option Bool :=
  if carry then do
    let low ← sum? 8 (a &&& 0x0F).toNat [(b &&& 0x0F).toNat, carry.toNat]
    return 0x0F < low
  else some (r &&& 0x0F < a &&& 0x0F)

/-- F after adding `b` and a carry to `a`. -/
def addFlags? (a b : Byte) (carry : Bool) : Option Flags := do
  let exact ← sum? 16 a.toNat [b.toNat, carry.toNat]
  let r := exact.toUInt8
  let half ← halfCarry? a b r carry
  return { Flags.ofResult r with
    h := half
    pv := Byte.bit ((a ^^^ r) &&& (b ^^^ r)) 7
    c := 0xFF < exact }

/-- F after subtracting `b` and a borrow from `a`: the borrow is added to what is taken. -/
def subFlags? (a b : Byte) (borrow : Bool) : Option Flags := do
  let r := subByte a b borrow
  let low ← sum? 8 (b &&& 0x0F).toNat [borrow.toNat]
  let exact ← sum? 16 b.toNat [borrow.toNat]
  return { Flags.ofResult r with
    h := (a &&& 0x0F).toNat < low
    pv := Byte.bit ((a ^^^ b) &&& (a ^^^ r)) 7
    n := true
    c := a.toNat < exact }

theorem toUInt8_sum (a b : Byte) (carry : Bool) :
    (a.toNat + b.toNat + carry.toNat).toUInt8 = addByte a b carry := by
  apply UInt8.toNat_inj.mp
  rw [addByte, UInt8.toNat_add, UInt8.toNat_add, Bool.toNat_toUInt8]
  show (a.toNat + b.toNat + carry.toNat) % 256 = _
  omega

theorem halfCarry?_eq (a b : Byte) (carry : Bool) :
    halfCarry? a b (addByte a b carry) carry = some (addFlags a b carry).h := by
  cases carry with
  | false =>
    -- a low digit below that of `a` has lost a carry
    rw [half_add_of_result]
    rfl
  | true =>
    have hlow : sum? 8 (a &&& 0x0F).toNat [(b &&& 0x0F).toNat, true.toNat] =
        some (a.toNat % 16 + b.toNat % 16 + 1) := by
      rw [Byte.toNat_and_lowDigit, Byte.toNat_and_lowDigit]
      exact sum?_two (by rw [Bool.toNat_true]; omega)
    rw [halfCarry?, if_pos rfl, hlow, Option.bind_eq_bind, Option.bind_some, addFlags_eq_exact,
      Option.pure_def, Option.some_inj]
    dsimp only [Exact.flags, Exact.sum, Bool.toNat_true]
    rw [decide_eq_decide]
    omega

theorem addFlags?_eq (a b : Byte) (carry : Bool) :
    addFlags? a b carry = some (addFlags a b carry) := by
  have := a.toNat_lt
  have := b.toNat_lt
  have := carry.toNat_le
  have hexact : sum? 16 a.toNat [b.toNat, carry.toNat] = some (a.toNat + b.toNat + carry.toNat) :=
    sum?_two (by omega)
  simp only [addFlags?, hexact, Option.bind_eq_bind, Option.bind_some, toUInt8_sum,
    halfCarry?_eq]
  rfl

theorem subFlags?_eq (a b : Byte) (borrow : Bool) :
    subFlags? a b borrow = some (subFlags a b borrow) := by
  have := b.toNat_lt
  have := borrow.toNat_le
  have hlow : sum? 8 (b &&& 0x0F).toNat [borrow.toNat] = some (b.toNat % 16 + borrow.toNat) := by
    rw [Byte.toNat_and_lowDigit]
    exact sum?_one (by omega)
  have hexact : sum? 16 b.toNat [borrow.toNat] = some (b.toNat + borrow.toNat) :=
    sum?_one (by omega)
  have hhalf : decide ((a &&& 0x0F).toNat < b.toNat % 16 + borrow.toNat) =
      (subFlags a b borrow).h := by
    rw [Byte.toNat_and_lowDigit, subFlags_eq_exact]
    dsimp only [Exact.flags, Exact.difference]
    rw [decide_eq_decide]
    omega
  simp only [subFlags?, hlow, hexact, Option.bind_eq_bind, Option.bind_some, hhalf]
  rfl

/-! ## Words -/

/-- The sum of two words with its F, from sums of 32 and 16 bits. -/
def addWord? (a b : Word) (f : Flags) : Option (Word × Flags) := do
  let exact ← sum? 32 a.toNat [b.toNat]
  let low ← sum? 16 (a &&& 0x0FFF).toNat [(b &&& 0x0FFF).toNat]
  let high := (exact >>> 8).toUInt8
  return (exact.toUInt16, { f with
    y := Byte.bit high 5
    h := 0x0FFF < low
    x := Byte.bit high 3
    n := false
    c := 0xFFFF < exact })

/-- The sum of two words and a carry with its F, from sums of 32 bits. -/
def adcWord? (a b : Word) (carry : Bool) : Option (Word × Flags) := do
  let exact ← sum? 32 a.toNat [b.toNat, carry.toNat]
  let r := exact.toUInt16
  let low ← sum? 32 (a &&& 0x0FFF).toNat [(b &&& 0x0FFF).toNat, carry.toNat]
  return (r, { wordResultFlags r with
    h := 0x0FFF < low
    pv := ((a ^^^ r) &&& (b ^^^ r)).hi.bit 7
    c := 0xFFFF < exact })

/-- The difference of two words and a borrow with its F, from sums of 16 and 32 bits. -/
def sbcWord? (a b : Word) (borrow : Bool) : Option (Word × Flags) := do
  let r := sbcWord a b borrow
  let low ← sum? 16 (b &&& 0x0FFF).toNat [borrow.toNat]
  let exact ← sum? 32 b.toNat [borrow.toNat]
  return (r, { wordResultFlags r with
    h := (a &&& 0x0FFF).toNat < low
    pv := ((a ^^^ b) &&& (a ^^^ r)).hi.bit 7
    n := true
    c := a.toNat < exact })

theorem Word.toNat_and_lowDigits (w : Word) : (w &&& 0x0FFF).toNat = w.toNat % 0x1000 := by
  rw [UInt16.toNat_and]
  exact Nat.and_two_pow_sub_one_eq_mod w.toNat 12

theorem addWord?_eq (a b : Word) (f : Flags) :
    addWord? a b f = some (a + b, addWordFlags a b f) := by
  have := a.toNat_lt
  have := b.toNat_lt
  have hexact : sum? 32 a.toNat [b.toNat] = some (a.toNat + b.toNat) :=
    sum?_one (by omega)
  have hlow : sum? 16 (a &&& 0x0FFF).toNat [(b &&& 0x0FFF).toNat] =
      some (a.toNat % 0x1000 + b.toNat % 0x1000) := by
    rw [Word.toNat_and_lowDigits, Word.toNat_and_lowDigits]
    exact sum?_one (by omega)
  have hword : (a.toNat + b.toNat).toUInt16 = a + b := by
    apply UInt16.toNat_inj.mp
    rw [UInt16.toNat_add]
    rfl
  have hhigh : ((a.toNat + b.toNat) >>> 8).toUInt8 = (a + b).hi := by
    apply UInt8.toNat_inj.mp
    rw [Word.toNat_hi, UInt16.toNat_add, Nat.shiftRight_eq_div_pow]
    show (a.toNat + b.toNat) / 256 % 256 = _
    omega
  simp only [addWord?, hexact, hlow, Option.bind_eq_bind, Option.bind_some, hword, hhigh]
  rfl

theorem adcWord?_eq (a b : Word) (carry : Bool) :
    adcWord? a b carry = some (adcWord a b carry, adcWordFlags a b carry) := by
  have := a.toNat_lt
  have := b.toNat_lt
  have := carry.toNat_le
  have hexact : sum? 32 a.toNat [b.toNat, carry.toNat] = some (a.toNat + b.toNat + carry.toNat) :=
    sum?_two (by omega)
  have hlow : sum? 32 (a &&& 0x0FFF).toNat [(b &&& 0x0FFF).toNat, carry.toNat] =
      some (a.toNat % 0x1000 + b.toNat % 0x1000 + carry.toNat) := by
    rw [Word.toNat_and_lowDigits, Word.toNat_and_lowDigits]
    exact sum?_two (by omega)
  have hword : (a.toNat + b.toNat + carry.toNat).toUInt16 = adcWord a b carry := by
    have hcarry : carry.toUInt16.toNat = carry.toNat := by cases carry <;> rfl
    apply UInt16.toNat_inj.mp
    rw [adcWord, UInt16.toNat_add, UInt16.toNat_add, hcarry]
    show (a.toNat + b.toNat + carry.toNat) % 65536 = _
    omega
  simp only [adcWord?, hexact, hlow, Option.bind_eq_bind, Option.bind_some, hword]
  rfl

theorem sbcWord?_eq (a b : Word) (borrow : Bool) :
    sbcWord? a b borrow = some (sbcWord a b borrow, sbcWordFlags a b borrow) := by
  have := b.toNat_lt
  have := borrow.toNat_le
  have hlow : sum? 16 (b &&& 0x0FFF).toNat [borrow.toNat] =
      some (b.toNat % 0x1000 + borrow.toNat) := by
    rw [Word.toNat_and_lowDigits]
    exact sum?_one (by omega)
  have hexact : sum? 32 b.toNat [borrow.toNat] = some (b.toNat + borrow.toNat) :=
    sum?_one (by omega)
  have hhalf : (a &&& 0x0FFF).toNat = a.toNat % 0x1000 := Word.toNat_and_lowDigits a
  simp only [sbcWord?, hlow, hexact, Option.bind_eq_bind, Option.bind_some, hhalf]
  rfl

end Z80
