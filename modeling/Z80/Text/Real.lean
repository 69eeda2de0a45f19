/-
  Z80.Text.Real

  Reading floating-point numbers: a sign, digits with a point among, before or
  behind them, and an exponent; or infinity or no number by name, in any case.
-/

import Z80.Text.Decimal

namespace Z80.Real

/-- The exponent that ends a number: zero if nothing is left. -/
def exponent? : List Char → Option Int
  | [] => some 0
  | c :: cs =>
    if c = 'e' ∨ c = 'E' then
      let (negative, cs) := takeSign cs
      let (digits, rest) := takeDigits cs
      if digits.isEmpty ∨ rest ≠ [] then none
      else some (if negative then -(ofDecimalDigits digits : Int) else ofDecimalDigits digits)
    else none

/-- The number that digits denote, rounded to the nearest double. -/
def decimal? (cs : List Char) : Option Float := do
  let (whole, cs) := takeDigits cs
  let (fraction, cs) := match cs with
    | '.' :: rest => takeDigits rest
    | cs => ([], cs)
  if whole.isEmpty && fraction.isEmpty then none
  let e ← exponent? cs
  some (nearestFloat (ofDecimalDigits (whole ++ fraction)) (e - fraction.length))

/-- The number that a name denotes. -/
def named? (cs : List Char) : Option Float :=
  let name := String.ofList (cs.map Char.toLower)
  if name == "inf" || name == "infinity" then some (1.0 / 0.0)
  else if name == "nan" then some (0.0 / 0.0)
  else none

/-- The number that a text denotes. -/
def read? (cs : List Char) : Option Float :=
  let (negative, cs) := takeSign cs
  (decimal? cs <|> named? cs).map fun f => if negative then -f else f

end Z80.Real
