/-
  Z80.Text.Decimal

  Decimal digits and the floating-point number nearest to a decimal.

  A ratio is brought to 53 significant binary digits (fewer near zero) in exact
  arithmetic and rounded once, ties to the even neighbour, so the result is the
  double nearest to the ratio.
-/

namespace Z80

/-- The value of a decimal digit. -/
def digitValue? (c : Char) : Option Nat :=
  if '0' ≤ c ∧ c ≤ '9' then some (c.toNat - '0'.toNat) else none

/-- The number that a list of decimal digits denotes, most significant first. -/
def ofDecimalDigits (ds : List Nat) : Nat :=
  ds.foldl (fun n d => n * 10 + d) 0

/-- The leading decimal digits of a text, and what follows them. -/
def takeDigits : List Char → List Nat × List Char
  | [] => ([], [])
  | c :: cs =>
    match digitValue? c with
    | some d =>
      let r := takeDigits cs
      (d :: r.1, r.2)
    | none => ([], c :: cs)

/-- A sign in front of a text, if there is one: whether it is a minus, and what
    follows. -/
def takeSign : List Char → Bool × List Char
  | '-' :: cs => (true, cs)
  | '+' :: cs => (false, cs)
  | cs => (false, cs)

/-! ## Nearest doubles -/

/-- The quotient of two numbers rounded to the nearest, ties to even. -/
def roundQuotient (n d : Nat) : Nat :=
  let q := n / d
  let r := n % d
  if d < 2 * r || (2 * r == d && q % 2 == 1) then q + 1 else q

/-- The exponent `q` for which a ratio divided by 2^q has 53 binary digits before
    the point, or -1074 if that is larger. -/
def ratioExponent (n d : Nat) : Int :=
  let guess : Int := (n.log2 : Int) - (d.log2 : Int) - 52
  -- the ratio lies between 2^(guess+51) and 2^(guess+53)
  let large := if 0 ≤ guess then d * Nat.pow 2 (guess.toNat + 52) ≤ n
    else d * Nat.pow 2 52 ≤ n * Nat.pow 2 (-guess).toNat
  max (if large then guess else guess - 1) (-1074)

/-- The bits of the double nearest to the ratio of two positive numbers. -/
def ratioBits (n d : Nat) : UInt64 :=
  let q := ratioExponent n d
  let m := if 0 ≤ q then roundQuotient n (d * Nat.pow 2 q.toNat)
    else roundQuotient (n * Nat.pow 2 (-q).toNat) d
  -- below 2^52 the number is subnormal; 2^53 carries into the exponent by itself
  let field := if m < Nat.pow 2 52 then m else (q + 1074).toNat * Nat.pow 2 52 + m
  (min field (2047 * Nat.pow 2 52)).toUInt64

/-- The double nearest to `m` times ten to the power `e`. -/
def nearestFloat (m : Nat) (e : Int) : Float :=
  let digits : Int := ((Nat.toDigits 10 m).length : Int)
  if m = 0 || digits + e < -330 then 0.0
  else if 310 < digits + e then Float.ofBits 0x7FF0000000000000
  else if 0 ≤ e then .ofBits (ratioBits (m * Nat.pow 10 e.toNat) 1)
  else .ofBits (ratioBits m (Nat.pow 10 (-e).toNat))

end Z80
