/-
  Z80.Instr

  The instructions of the processor as data: their operands, conditions and
  register pairs, and how long each takes.

  An instruction is free of its encoding.  HL, IX and IY share the forms that
  a prefix byte selects between: a pair is a parameter (`Pair.hlOr`), and an
  8-bit operand has its own forms for the halves of an index register and for
  memory at a displacement from it.
-/

import Z80.Registers
import Z80.Arithmetic.Bytes
import Z80.Arithmetic.Rotate

namespace Z80

/-! ## Operands -/

/-- The register selected by a three-bit field; field 6 selects none. -/
def Reg8.ofField? (field : Byte) : Option Reg8 :=
  match field &&& 7 with
  | 0 => some .b
  | 1 => some .c
  | 2 => some .d
  | 3 => some .e
  | 4 => some .h
  | 5 => some .l
  | 7 => some .a
  | _ => none

/-- An 8-bit operand. -/
inductive Operand where
  /-- A register. -/
  | reg (r : Reg8)
  /-- The high half of an index register. -/
  | high (x : Index)
  /-- The low half of an index register. -/
  | low (x : Index)
  /-- The memory cell that HL points at. -/
  | hl
  /-- The memory cell at a displacement from an index register. -/
  | indexed (x : Index) (disp : Int8)
  deriving DecidableEq, Repr

namespace Operand

/-- The operand selected by a three-bit field, whatever prefix is active. -/
def plain (field : Byte) : Operand :=
  match Reg8.ofField? field with
  | some r => reg r
  | none => hl

/-- The operand selected by a three-bit field under a prefix: H, L and the cell
    at HL become the halves of the index register and the cell at the
    displacement from it. -/
def ofField (field : Byte) (x? : Option Index) (disp : Int8) : Operand :=
  match x? with
  | none => plain field
  | some x =>
    match field &&& 7 with
    | 4 => high x
    | 5 => low x
    | 6 => indexed x disp
    | _ => plain field

/-- Whether the operand is a memory cell. -/
def isMemory : Operand → Bool
  | hl => true
  | indexed _ _ => true
  | _ => false

/-- The time an operand takes by its kind: a register or half of an index
    register, the cell at HL, or a cell at a displacement. -/
def time (o : Operand) (register cell displaced : Nat) : Nat :=
  match o with
  | reg _ => register
  | high _ => register
  | low _ => register
  | hl => cell
  | indexed _ _ => displaced

end Operand

/-- A 16-bit register operand. -/
inductive Pair where
  | bank (rr : Reg16)
  | sp
  | index (x : Index)
  deriving DecidableEq, Repr

namespace Pair

/-- HL, or the index register that takes its place under a prefix. -/
def hlOr : Option Index → Pair
  | none => bank .hl
  | some x => index x

/-- The pair selected by a two-bit field: BC, DE, HL or SP. -/
def ofField (p : Byte) (x? : Option Index) : Pair :=
  match p &&& 3 with
  | 0 => bank .bc
  | 1 => bank .de
  | 2 => hlOr x?
  | _ => sp

/-- The pair selected by a two-bit field of PUSH and POP: BC, DE, HL or AF. -/
def ofStackField (p : Byte) (x? : Option Index) : Pair :=
  match p &&& 3 with
  | 3 => bank .af
  | _ => ofField p x?

/-- Whether the pair is an index register. -/
def isIndex : Pair → Bool
  | index _ => true
  | _ => false

end Pair

/-- The conditions of jumps, calls and returns. -/
inductive Cond where
  | nz | z | nc | c | po | pe | p | m
  deriving DecidableEq, Repr

namespace Cond

/-- The condition selected by a three-bit field. -/
def ofField (y : Byte) : Cond :=
  match y &&& 7 with
  | 0 => nz
  | 1 => z
  | 2 => nc
  | 3 => c
  | 4 => po
  | 5 => pe
  | 6 => p
  | _ => m

/-- Whether the condition holds of the flags. -/
def holds (cc : Cond) (f : Flags) : Bool :=
  match cc with
  | nz => !f.z
  | z => f.z
  | nc => !f.c
  | c => f.c
  | po => !f.pv
  | pe => f.pv
  | p => !f.s
  | m => f.s

end Cond

/-! ## Instructions -/

/-- The direction of a block instruction. -/
inductive Direction where
  | up | down
  deriving DecidableEq, Repr

/-- What a block instruction adds to its pointers. -/
def Direction.delta : Direction → Word
  | .up => 1
  | .down => 0xFFFF

/-- What a block instruction does with one byte. -/
inductive BlockOp where
  /-- LDI and its kin: copy from HL to DE. -/
  | load
  /-- CPI and its kin: compare A with the cell at HL. -/
  | compare
  /-- INI and its kin: read a port into the cell at HL. -/
  | input
  /-- OUTI and its kin: write the cell at HL to a port. -/
  | output
  deriving DecidableEq, Repr

/-- The bytes of an opcode that has no instruction. -/
inductive Opcode where
  | cb (op : Byte)
  | ed (op : Byte)
  | indexCb (x : Index) (disp : Int8) (op : Byte)
  deriving DecidableEq, Repr

/-- The instructions. -/
inductive Instr where
  /-- NOP, and a prefix byte that another prefix byte overrides. -/
  | nop
  /-- LD dst,src. -/
  | ld (dst src : Operand)
  /-- LD dst,n. -/
  | ldByte (dst : Operand) (n : Byte)
  /-- LD A,(rr). -/
  | ldAFromPair (rr : Reg16)
  /-- LD (rr),A. -/
  | ldAToPair (rr : Reg16)
  /-- LD A,(nn). -/
  | ldAFrom (nn : Word)
  /-- LD (nn),A. -/
  | ldATo (nn : Word)
  /-- LD I,A. -/
  | ldIA
  /-- LD R,A. -/
  | ldRA
  /-- LD A,I. -/
  | ldAI
  /-- LD A,R. -/
  | ldAR
  /-- LD rr,nn. -/
  | ldWord (rr : Pair) (nn : Word)
  /-- LD rr,(nn). -/
  | ldPairFrom (rr : Pair) (nn : Word)
  /-- LD (nn),rr. -/
  | ldPairTo (rr : Pair) (nn : Word)
  /-- LD SP,rr. -/
  | ldSp (rr : Pair)
  /-- PUSH rr. -/
  | push (rr : Pair)
  /-- POP rr. -/
  | pop (rr : Pair)
  /-- EX DE,HL. -/
  | exDeHl
  /-- EX AF,AF'. -/
  | exAf
  /-- EXX. -/
  | exx
  /-- EX (SP),rr. -/
  | exSp (rr : Pair)
  /-- ADD, ADC, SUB, SBC, AND, XOR, OR or CP with an operand. -/
  | alu (op : AluOp) (src : Operand)
  /-- The same with an immediate byte. -/
  | aluByte (op : AluOp) (n : Byte)
  /-- INC r. -/
  | inc (dst : Operand)
  /-- DEC r. -/
  | dec (dst : Operand)
  /-- ADD dst,src on pairs. -/
  | addPair (dst src : Pair)
  /-- ADC HL,src. -/
  | adcHl (src : Pair)
  /-- SBC HL,src. -/
  | sbcHl (src : Pair)
  /-- INC rr. -/
  | incPair (rr : Pair)
  /-- DEC rr. -/
  | decPair (rr : Pair)
  | daa
  | cpl
  | neg
  | ccf
  | scf
  /-- RLCA, RRCA, RLA or RRA. -/
  | rotA (op : RotOp)
  /-- A rotation or shift of an operand; `copy` also receives the result. -/
  | rot (op : RotOp) (target : Operand) (copy : Option Reg8)
  | rld
  | rrd
  /-- BIT n,src. -/
  | bit (n : Fin 8) (src : Operand)
  /-- RES n,target; `copy` also receives the result. -/
  | res (n : Fin 8) (target : Operand) (copy : Option Reg8)
  /-- SET n,target; `copy` also receives the result. -/
  | set (n : Fin 8) (target : Operand) (copy : Option Reg8)
  /-- JP nn or JP cc,nn. -/
  | jp (cc? : Option Cond) (nn : Word)
  /-- JP (HL) and its index forms: the register itself is the target. -/
  | jpPair (rr : Pair)
  /-- JR e or JR cc,e. -/
  | jr (cc? : Option Cond) (disp : Int8)
  /-- DJNZ e. -/
  | djnz (disp : Int8)
  /-- CALL nn or CALL cc,nn. -/
  | call (cc? : Option Cond) (nn : Word)
  /-- RET or RET cc. -/
  | ret (cc? : Option Cond)
  /-- RETN and RETI. -/
  | retn
  /-- RST p. -/
  | rst (target : Byte)
  /-- IN A,(n). -/
  | inA (n : Byte)
  /-- OUT (n),A. -/
  | outA (n : Byte)
  /-- IN r,(C). -/
  | inC (r : Reg8)
  /-- OUT (C),r. -/
  | outC (r : Reg8)
  /-- A block instruction, repeating or not. -/
  | block (op : BlockOp) (dir : Direction) (repeats : Bool)
  | halt
  | di
  | ei
  /-- IM 0, IM 1 or IM 2. -/
  | im (mode : Byte)
  /-- An opcode without an instruction: it is fetched and does nothing. -/
  | unimplemented (opcode : Opcode)
  deriving DecidableEq, Repr

/-! ## Timing -/

/-- The T-states of an instruction after its opcode fetches, which take four
    each.  `taken` says whether a conditional transfer happens or a block
    instruction repeats. -/
def Instr.tail (taken : Bool) : Instr → Nat
  | nop | exDeHl | exAf | exx | daa | cpl | neg | ccf | scf | rotA _ | jpPair _ | halt | di | ei
  | im _ => 0
  | ld dst src => max (dst.time 0 3 11) (src.time 0 3 11)
  | ldByte dst _ => dst.time 3 6 11
  | ldAFromPair _ | ldAToPair _ | aluByte _ _ => 3
  | ldAFrom _ | ldATo _ => 9
  | ldIA | ldRA | ldAI | ldAR => 1
  | ldWord _ _ | pop _ | jp _ _ | retn => 6
  | ldPairFrom _ _ | ldPairTo _ _ => 12
  | ldSp _ | incPair _ | decPair _ => 2
  | push _ | addPair _ _ | adcHl _ | sbcHl _ | rst _ | inA _ | outA _ => 7
  | exSp _ => 15
  | alu _ src => src.time 0 3 11
  | inc dst | dec dst => dst.time 0 7 15
  | rot _ target _ | res _ target _ | set _ target _ => target.time 0 7 15
  | bit _ src => src.time 0 4 12
  | rld | rrd => 10
  | jr _ _ => if taken then 8 else 3
  | djnz _ => if taken then 9 else 4
  | call _ _ => if taken then 13 else 6
  | ret none => 6
  | ret (some _) => if taken then 7 else 1
  | inC _ | outC _ => 4
  | block _ _ _ => if taken then 13 else 8
  | unimplemented (.indexCb _ _ _) => 15
  | unimplemented _ => 0

end Z80
