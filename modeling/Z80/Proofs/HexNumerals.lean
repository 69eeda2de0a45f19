/-
  Z80.Proofs.HexNumerals

  Hexadecimal numerals read back.

  A digit of either case reads back as its value, so a numeral of a fixed width reads back as
  the number modulo a power of 16 (`number_fixed`), and one without leading zeros as the
  number itself (`number_short`).  Numerals of one width are therefore different where the
  numbers are (`upper_inj`).
-/

import Mathlib.Algebra.GroupWithZero.Nat
import Z80.Text.Hex

namespace Z80.Hex

/-- The number that hexadecimal digits denote. -/
def number (cs : List Char) : Nat :=
  cs.foldl (fun n c => n * 16 + (value? c).getD 0) 0

/-- A digit reads back in either case. -/
theorem value?_digit (capital : Bool) {d : Nat} (h : d < 16) : value? (digit capital d) = some d := by
  revert d
  cases capital <;> decide

theorem length_fixed (capital : Bool) (w n : Nat) : (fixed capital w n).length = w := by
  induction w generalizing n with
  | zero => rfl
  | succ w ih => rw [fixed, List.length_append, ih, List.length_singleton]

/-- The digits of a fixed width are those of the number modulo a power of 16. -/
theorem number_fixed (capital : Bool) (w n : Nat) : number (fixed capital w n) = n % 16 ^ w := by
  induction w generalizing n with
  | zero => exact (Nat.mod_one n).symm
  | succ w ih =>
    have hdigit : (value? (digit capital (n % 16))).getD 0 = n % 16 := by
      rw [value?_digit capital (Nat.mod_lt n (by decide))]
      rfl
    have happend : number (fixed capital (w + 1) n) =
        number (fixed capital w (n / 16)) * 16 + (value? (digit capital (n % 16))).getD 0 := by
      rw [number, fixed, List.foldl_append]
      rfl
    rw [happend, hdigit, ih, Nat.pow_succ, Nat.mul_comm (16 ^ w) 16, Nat.mod_mul, Nat.mul_comm,
      Nat.add_comm]

/-- A number fits its width. -/
theorem lt_pow_width (n : Nat) : n < 16 ^ width n := by
  rw [width]
  split
  case isTrue h => rw [h]; decide
  case isFalse h =>
    have hpow : 16 ^ (n.log2 / 4 + 1) = 2 ^ (4 * (n.log2 / 4 + 1)) := by
      rw [Nat.pow_mul]
    rw [hpow]
    calc n < 2 ^ (n.log2 + 1) := Nat.lt_log2_self
      _ ≤ 2 ^ (4 * (n.log2 / 4 + 1)) := Nat.pow_le_pow_right (by decide) (by omega)

/-- A numeral without leading zeros reads back as its number. -/
theorem number_short (n : Nat) : number (short n).toList = n := by
  rw [short, upper, String.toList_ofList, number_fixed, Nat.mod_eq_of_lt (lt_pow_width n)]

theorem length_upper (w n : Nat) : (upper w n).length = w := by
  rw [upper, String.length_ofList, length_fixed]

/-- Numerals of one width are different where the numbers are. -/
theorem upper_inj {w a b : Nat} (ha : a < 16 ^ w) (hb : b < 16 ^ w) :
    upper w a = upper w b ↔ a = b := by
  refine ⟨fun h => ?_, congrArg _⟩
  have hread := congrArg (fun s => number s.toList) h
  simp only [upper, String.toList_ofList, number_fixed] at hread
  rwa [Nat.mod_eq_of_lt ha, Nat.mod_eq_of_lt hb] at hread

end Z80.Hex
