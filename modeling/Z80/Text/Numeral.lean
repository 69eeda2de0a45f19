/-
  Z80.Text.Numeral

  Reading natural numbers below a bound: digits of a radix, behind at most one
  plus sign.  The first character at fault decides the error: one that is no
  digit, or the digit with which the number leaves the bound.
-/

import Z80.Text.Hex

namespace Z80

/-- Why a text is no numeral. -/
inductive NumeralError where
  | empty
  | invalidDigit
  | tooLarge
  deriving DecidableEq, Repr

/-- The message of a numeral error. -/
def NumeralError.message : NumeralError → String
  | empty => "cannot parse integer from empty string"
  | invalidDigit => "invalid digit found in string"
  | tooLarge => "number too large to fit in target type"

namespace Numeral

/-- The value of a digit of a radix, at most 16. -/
def digit? (radix : Nat) (c : Char) : Option Nat :=
  (Hex.value? c).filter (· < radix)

/-- The number that digits denote when they follow digits of the number `value`. -/
def readDigits (radix bound value : Nat) : List Char → Except NumeralError Nat
  | [] => .ok value
  | c :: cs =>
    match digit? radix c with
    | none => .error .invalidDigit
    | some d =>
      if value * radix + d < bound then readDigits radix bound (value * radix + d) cs
      else .error .tooLarge

/-- The number below `bound` that a text denotes in a radix.  A sign needs a digit
    behind it. -/
def read (radix bound : Nat) : List Char → Except NumeralError Nat
  | [] => .error .empty
  | ['+'] => .error .invalidDigit
  | '+' :: cs => readDigits radix bound 0 cs
  | cs => readDigits radix bound 0 cs

end Numeral

end Z80
