/-
  Z80.Address

  Addresses as they are given on a command line: decimal, hexadecimal behind
  `0x`, or hexadecimal before `h`.  White space around an address does not count.
-/

import Z80.Text.Numeral
import Z80.Text.Quoted
import Z80.Text.WhiteSpace
import Z80.Word

namespace Z80

/-- Why a text is no address: the text without the white space around it and
    what is wrong with its numeral. -/
structure AddressError where
  text : List Char
  reason : NumeralError
  deriving DecidableEq, Repr

/-- The message of an address error. -/
def AddressError.message (e : AddressError) : String :=
  "invalid address " ++ String.ofList (Quoted.encode e.text) ++ ": " ++ e.reason.message

namespace Address

/-- The radix of an address without white space around it, and its numeral.  The
    `0x` in front counts before the `h` behind. -/
def split : List Char → Nat × List Char
  | '0' :: 'x' :: cs => (16, cs)
  | '0' :: 'X' :: cs => (16, cs)
  | cs =>
    match cs.getLast? with
    | some 'h' => (16, cs.dropLast)
    | some 'H' => (16, cs.dropLast)
    | _ => (10, cs)

/-- The address that a text denotes. -/
def parse (s : String) : Except AddressError Word :=
  let t := trimWhiteSpace s.toList
  let (radix, numeral) := split t
  match Numeral.read radix 65536 numeral with
  | .ok n => .ok n.toUInt16
  | .error reason => .error ⟨t, reason⟩

end Address

end Z80
