/-
  Z80.Text.Hex

  Hexadecimal digits and numerals with a fixed number of them.
-/

namespace Z80.Hex

/-- The value of a hexadecimal digit in either case. -/
def value? (c : Char) : Option Nat :=
  if '0' ≤ c ∧ c ≤ '9' then some (c.toNat - '0'.toNat)
  else if 'a' ≤ c ∧ c ≤ 'f' then some (c.toNat - 'a'.toNat + 10)
  else if 'A' ≤ c ∧ c ≤ 'F' then some (c.toNat - 'A'.toNat + 10)
  else none

/-- The numeral of a digit, with capital letters or small ones. -/
def digit (capital : Bool) (d : Nat) : Char :=
  if d < 10 then Char.ofNat ('0'.toNat + d)
  else Char.ofNat ((if capital then 'A'.toNat else 'a'.toNat) + (d - 10))

/-- The last `width` digits of a number. -/
def fixed (capital : Bool) : Nat → Nat → List Char
  | 0, _ => []
  | width + 1, n => fixed capital width (n / 16) ++ [digit capital (n % 16)]

/-- The number of digits of a number, at least one. -/
def width (n : Nat) : Nat :=
  if n = 0 then 1 else n.log2 / 4 + 1

/-- The last `width` digits of a number in capital letters. -/
def upper (width n : Nat) : String :=
  String.ofList (fixed true width n)

/-- The last `width` digits of a number in small letters. -/
def lower (width n : Nat) : String :=
  String.ofList (fixed false width n)

/-- A number in capital letters without leading zeros. -/
def short (n : Nat) : String :=
  upper (width n) n

end Z80.Hex
