/-
  Z80.Case.Selection

  Which cases the generator is asked for on its command line: those of one
  opcode, or those of every opcode that is an instruction by itself.
-/

import Z80.Case.Generate
import Z80.Text.Numeral

namespace Z80.Case

/-- The opcodes to generate cases for. -/
inductive Selection where
  | all
  | opcode (op : Byte)
  deriving DecidableEq, Repr

/-- Why a command line selects nothing. -/
inductive SelectionError where
  /-- There is not exactly one argument. -/
  | usage
  /-- The argument is no hexadecimal byte. -/
  | invalid (arg : String)
  /-- The opcode needs another one behind it. -/
  | incomplete (op : Byte)
  deriving DecidableEq, Repr

/-- The message of a selection error. -/
def SelectionError.message : SelectionError → String
  | usage =>
    "Usage: gen_z80_tests <opcode_hex | all>\nExamples:\n  gen_z80_tests 0x86\n" ++
      "  gen_z80_tests all"
  | invalid arg => "Invalid hex opcode: " ++ arg
  | incomplete op => "Opcode 0x" ++ Hex.upper 2 op.toNat ++ " is a prefix, not an instruction"

namespace Selection

/-- A text without the marks of its radix in front, however many: a zero and a
    letter each. -/
def dropMarks (letter : Char) : List Char → List Char
  | '0' :: c :: cs => if c = letter then dropMarks letter cs else '0' :: c :: cs
  | cs => cs

/-- The selection that a command line asks for. -/
def parse : List String → Except SelectionError Selection
  | ["all"] => .ok .all
  | [arg] =>
    match Numeral.read 16 256 (dropMarks 'X' (dropMarks 'x' arg.toList)) with
    | .error _ => .error (.invalid arg)
    | .ok n =>
      let op := n.toUInt8
      if supported op then .ok (.opcode op) else .error (.incomplete op)
  | _ => .error .usage

/-- The opcodes of a selection. -/
def opcodes : Selection → List Byte
  | all => ((List.range 256).map Nat.toUInt8).filter supported
  | opcode op => [op]

end Selection

end Z80.Case
