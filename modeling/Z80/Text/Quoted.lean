/-
  Z80.Text.Quoted

  Texts in quotation marks, so that every character of them can be told: marks
  and backslashes have a backslash before them, and characters that do not show
  as themselves are written as escapes.
-/

import Z80.Text.Hex
import Z80.Text.Printable

namespace Z80

/-- The digits of a number in small letters without leading zeros. -/
def Hex.shortLower (n : Nat) : List Char :=
  Hex.fixed false (Hex.width n) n

namespace Quoted

/-- A character as it is written between quotation marks. -/
def escape (c : Char) : List Char :=
  if c = '"' then ['\\', '"']
  else if c = '\\' then ['\\', '\\']
  else if c = '\t' then ['\\', 't']
  else if c = '\n' then ['\\', 'n']
  else if c = '\r' then ['\\', 'r']
  else if c = '\x00' then ['\\', '0']
  else if isPrintable c then [c]
  else ['\\', 'u', '\x7b'] ++ Hex.shortLower c.toNat ++ ['\x7d']

/-- A text in quotation marks. -/
def encode (cs : List Char) : List Char :=
  '"' :: cs.flatMap escape ++ ['"']

end Quoted

end Z80
