/-
  Z80.Json.Basic

  JSON values as they are written: numbers keep their digits, so that `1`, `1.0`
  and `-0` stay apart, and objects keep their members in order with repetitions.
  A string literal that escapes half of a surrogate pair denotes no text; it is
  kept without one, because it matters only to a reader that wants the text.
-/

import Z80.Text.Decimal

namespace Z80

/-- A number literal. -/
structure Json.Number where
  negative : Bool
  whole : List Nat
  fraction : List Nat
  /-- The sign and the digits of the exponent. -/
  exponent : Option (Bool × List Nat)
  deriving DecidableEq, Repr

/-- A JSON value. -/
inductive Json where
  | null
  | bool (b : Bool)
  | num (n : Json.Number)
  | str (s : Option String)
  | arr (xs : List Json)
  | obj (members : List (Option String × Json))
  deriving Repr, Inhabited

namespace Json

/-! ## Numbers -/

namespace Number

/-- The literal of an integer. -/
def ofInt (i : Int) : Number where
  negative := i < 0
  whole := (Nat.toDigits 10 i.natAbs).filterMap digitValue?
  fraction := []
  exponent := none

/-- The integer that a literal without fraction and exponent denotes.  Minus zero
    is no integer. -/
def toInt? (n : Number) : Option Int :=
  match n.fraction, n.exponent with
  | [], none =>
    let v := ofDecimalDigits n.whole
    if n.negative then if v = 0 then none else some (-v) else some v
  | _, _ => none

/-- The digits of a significand that fit in 64 bits: the value and the number of
    digits left over. -/
def significand (start : Nat) : List Nat → Nat × Nat
  | [] => (start, 0)
  | d :: ds =>
    if start * 10 + d < 0x10000000000000000 then significand (start * 10 + d) ds
    else (start, ds.length + 1)

/-- A double scaled by a power of ten: one multiplication or division, or, beyond
    the powers that a double holds, divisions by 10^308 first.  `none` when the
    result is too large. -/
def scale (fuel : Nat) (f : Float) (e : Int) : Option Float :=
  if e.natAbs ≤ 308 then
    let power := nearestFloat 1 e.natAbs
    if 0 ≤ e then if (f * power).isInf then none else some (f * power) else some (f / power)
  else if f == 0.0 then some f
  else if 0 ≤ e then none
  else
    match fuel with
    | 0 => some 0.0
    | fuel + 1 => scale fuel (f / nearestFloat 1 308) (e + 308)

/-- The double that a literal denotes for a reader that collects as many digits
    as 64 bits hold and then scales: exact for short literals, and within a few
    units of the last place for others.  `none` when it is too large. -/
def toFloat? (n : Number) : Option Float :=
  let whole := significand 0 n.whole
  let fraction := significand whole.1 n.fraction
  let power : Int := whole.2 - (n.fraction.length - fraction.2 : Nat)
  let magnitude : Option Float :=
    match n.exponent with
    | none =>
      if n.fraction.isEmpty && whole.2 == 0 then some whole.1.toUInt64.toFloat
      else scale 20 fraction.1.toUInt64.toFloat power
    | some (negative, digits) =>
      let e := ofDecimalDigits digits
      if 0x80000000 ≤ e then
        if fraction.1 != 0 && !negative then none else some 0.0
      else scale 20 fraction.1.toUInt64.toFloat (if negative then power - e else power + e)
  magnitude.map fun f => if n.negative then -f else f

end Number

/-- The value of a natural number. -/
def ofNat (n : Nat) : Json :=
  num (.ofInt n)

/-- The value of a text. -/
def text (s : String) : Json :=
  str (some s)

/-- The value of an object with the given members. -/
def object (members : List (String × Json)) : Json :=
  obj (members.map fun m => (some m.1, m.2))

/-! ## Looking into values -/

/-- The members of an object. -/
def members? : Json → Option (List (Option String × Json))
  | obj members => some members
  | _ => none

/-- The first member of an object with a name. -/
def member? (v : Json) (name : String) : Option Json :=
  match v with
  | obj members => members.lookup (some name)
  | _ => none

/-- The integer in a value. -/
def int? : Json → Option Int
  | num n => n.toInt?
  | _ => none

/-- The natural number in a value, if it is below a bound. -/
def natBelow? (bound : Nat) (v : Json) : Option Nat :=
  match v.int? with
  | some i => if 0 ≤ i ∧ i < bound then some i.toNat else none
  | none => none

/-- The text in a value. -/
def text? : Json → Option String
  | str s => s
  | _ => none

/-- The truth value in a value. -/
def bool? : Json → Option Bool
  | bool b => some b
  | _ => none

/-- The elements of an array. -/
def elements? : Json → Option (List Json)
  | arr xs => some xs
  | _ => none

end Json

end Z80
