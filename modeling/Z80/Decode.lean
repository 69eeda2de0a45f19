/-
  Z80.Decode

  From bytes to instructions.  No instruction is longer than four bytes, so the
  four bytes from the program counter on decide what is executed, how many of
  them are used and how many of those are opcode fetches.

  Opcodes are split into fields: `x` the two highest bits, `y` the next three
  and `z` the lowest three; `p` is the upper two bits of `y` and `q` its lowest.
  There are six pages: the main one, CB, ED, the main page under DD or FD, and
  CB under DD or FD.
-/

import Z80.Instr

namespace Z80

/-- An instruction with its encoding: the number of bytes, and whether one of
    the two opcode fetches is a prefix. -/
structure Decoded where
  instr : Instr
  size : Nat
  prefixed : Bool
  deriving DecidableEq, Repr

namespace Decode

/-- Field `y` of an opcode, bits 5 to 3. -/
def fieldY (op : Byte) : Byte := (op >>> 3) &&& 7

/-- Field `z` of an opcode, bits 2 to 0. -/
def fieldZ (op : Byte) : Byte := op &&& 7

/-- Field `p` of an opcode, bits 5 and 4. -/
def fieldP (op : Byte) : Byte := (op >>> 4) &&& 3

/-- Field `q` of an opcode, bit 3. -/
def fieldQ (op : Byte) : Bool := op.bit 3

/-- The bit number in field `y`. -/
def bitNumber (op : Byte) : Fin 8 :=
  ⟨(fieldY op).toNat % 8, Nat.mod_lt _ (by decide)⟩

/-! ## The main page -/

/-- The opcodes of the main page whose meaning a DD or FD prefix changes: those
    with HL, H, L or the cell at HL as an operand, but for EX DE,HL and EXX. -/
def indexAffects (op : Byte) : Bool :=
  let y := fieldY op
  let z := fieldZ op
  match op >>> 6 with
  | 0 =>
    match z with
    | 1 => fieldQ op || y == 4
    | 2 => op == 0x22 || op == 0x2A
    | 3 => fieldP op == 2
    | 4 | 5 | 6 => 4 ≤ y && y ≤ 6
    | _ => false
  | 1 => op != 0x76 && ((4 ≤ y && y ≤ 6) || (4 ≤ z && z ≤ 6))
  | 2 => 4 ≤ z && z ≤ 6
  | _ => op == 0xCB || op == 0xE1 || op == 0xE3 || op == 0xE5 || op == 0xE9 || op == 0xF9

/-- The displacement bytes of an operand field: one for a cell at a displacement
    from an index register. -/
def displacementSize (field : Byte) (x? : Option Index) : Nat :=
  match field &&& 7, x? with
  | 6, some _ => 1
  | _, _ => 0

/-- Opcodes 00 to 3F.  The result holds the number of bytes after the opcode. -/
def mainLow (x? : Option Index) (op n₁ n₂ : Byte) : Instr × Nat :=
  let y := fieldY op
  let p := fieldP op
  let nn := Word.ofBytes n₂ n₁
  match fieldZ op with
  | 0 =>
    match y with
    | 0 => (.nop, 0)
    | 1 => (.exAf, 0)
    | 2 => (.djnz n₁.toInt8, 1)
    | 3 => (.jr none n₁.toInt8, 1)
    | _ => (.jr (some (.ofField (y - 4))) n₁.toInt8, 1)
  | 1 =>
    if fieldQ op then (.addPair (.hlOr x?) (.ofField p x?), 0)
    else (.ldWord (.ofField p x?) nn, 2)
  | 2 =>
    match y with
    | 0 => (.ldAToPair .bc, 0)
    | 1 => (.ldAFromPair .bc, 0)
    | 2 => (.ldAToPair .de, 0)
    | 3 => (.ldAFromPair .de, 0)
    | 4 => (.ldPairTo (.hlOr x?) nn, 2)
    | 5 => (.ldPairFrom (.hlOr x?) nn, 2)
    | 6 => (.ldATo nn, 2)
    | _ => (.ldAFrom nn, 2)
  | 3 => if fieldQ op then (.decPair (.ofField p x?), 0) else (.incPair (.ofField p x?), 0)
  | 4 => (.inc (.ofField y x? n₁.toInt8), displacementSize y x?)
  | 5 => (.dec (.ofField y x? n₁.toInt8), displacementSize y x?)
  | 6 =>
    -- a displacement comes before the immediate byte
    let d := displacementSize y x?
    (.ldByte (.ofField y x? n₁.toInt8) (if d == 1 then n₂ else n₁), d + 1)
  | _ =>
    match y with
    | 0 => (.rotA .rlc, 0)
    | 1 => (.rotA .rrc, 0)
    | 2 => (.rotA .rl, 0)
    | 3 => (.rotA .rr, 0)
    | 4 => (.daa, 0)
    | 5 => (.cpl, 0)
    | 6 => (.scf, 0)
    | _ => (.ccf, 0)

/-- Opcodes 40 to 7F: HALT and the loads between 8-bit operands.  A load with a
    cell at a displacement keeps plain H and L for its other operand. -/
def mainLoad (x? : Option Index) (op n₁ : Byte) : Instr × Nat :=
  let y := fieldY op
  let z := fieldZ op
  if op == 0x76 then (.halt, 0)
  else if y == 6 then (.ld (.ofField 6 x? n₁.toInt8) (.plain z), displacementSize 6 x?)
  else if z == 6 then (.ld (.plain y) (.ofField 6 x? n₁.toInt8), displacementSize 6 x?)
  else (.ld (.ofField y x? 0) (.ofField z x? 0), 0)

/-- Opcodes C0 to FF but for the four prefix bytes, which select other pages and
    stand for NOP here. -/
def mainHigh (x? : Option Index) (op n₁ n₂ : Byte) : Instr × Nat :=
  let y := fieldY op
  let p := fieldP op
  let nn := Word.ofBytes n₂ n₁
  match fieldZ op with
  | 0 => (.ret (some (.ofField y)), 0)
  | 1 =>
    if fieldQ op then
      match p with
      | 0 => (.ret none, 0)
      | 1 => (.exx, 0)
      | 2 => (.jpPair (.hlOr x?), 0)
      | _ => (.ldSp (.hlOr x?), 0)
    else (.pop (.ofStackField p x?), 0)
  | 2 => (.jp (some (.ofField y)) nn, 2)
  | 3 =>
    match y with
    | 0 => (.jp none nn, 2)
    | 1 => (.nop, 0)
    | 2 => (.outA n₁, 1)
    | 3 => (.inA n₁, 1)
    | 4 => (.exSp (.hlOr x?), 0)
    | 5 => (.exDeHl, 0)
    | 6 => (.di, 0)
    | _ => (.ei, 0)
  | 4 => (.call (some (.ofField y)) nn, 2)
  | 5 =>
    if fieldQ op then
      if p == 0 then (.call none nn, 2) else (.nop, 0)
    else (.push (.ofStackField p x?), 0)
  | 6 => (.aluByte (.ofField y) n₁, 1)
  | _ => (.rst (op &&& 0x38), 0)

/-- The instruction of a main-page opcode followed by `n₁` and `n₂`, and the
    number of those bytes that belong to it. -/
def main (x? : Option Index) (op n₁ n₂ : Byte) : Instr × Nat :=
  match op >>> 6 with
  | 0 => mainLow x? op n₁ n₂
  | 1 => mainLoad x? op n₁
  | 2 => (.alu (.ofField (fieldY op)) (.ofField (fieldZ op) x? n₁.toInt8),
          displacementSize (fieldZ op) x?)
  | _ => mainHigh x? op n₁ n₂

/-! ## The CB pages -/

/-- The instruction of a CB-page opcode on a target; `copy` is the register that
    also receives the result. -/
def bits (op : Byte) (target : Operand) (copy : Option Reg8) (opcode : Opcode) : Instr :=
  match op >>> 6 with
  | 0 =>
    match RotOp.ofField? (fieldY op) with
    | some rot => .rot rot target copy
    | none => .unimplemented opcode
  | 1 => .bit (bitNumber op) target
  | 2 => .res (bitNumber op) target copy
  | _ => .set (bitNumber op) target copy

/-- The instruction of the bytes CB `op`. -/
def cb (op : Byte) : Instr :=
  bits op (.plain op) none (.cb op)

/-- The instruction of the bytes DD CB `d` `op` or FD CB `d` `op`.  Whatever the
    register field says, the target is memory; a register there also receives
    the result. -/
def indexCb (x : Index) (d op : Byte) : Instr :=
  bits op (.indexed x d.toInt8) (Reg8.ofField? op) (.indexCb x d.toInt8 op)

/-! ## The ED page -/

/-- Opcodes ED 40 to ED 7F and the number of bytes after them. -/
def edMiddle (op n₁ n₂ : Byte) : Instr × Nat :=
  let rr := Pair.ofField (fieldP op) none
  let nn := Word.ofBytes n₂ n₁
  match fieldZ op with
  | 0 =>
    match Reg8.ofField? (fieldY op) with
    | some r => (.inC r, 0)
    | none => (.unimplemented (.ed op), 0)
  | 1 =>
    match Reg8.ofField? (fieldY op) with
    | some r => (.outC r, 0)
    | none => (.unimplemented (.ed op), 0)
  | 2 => if fieldQ op then (.adcHl rr, 0) else (.sbcHl rr, 0)
  | 3 => if fieldQ op then (.ldPairFrom rr nn, 2) else (.ldPairTo rr nn, 2)
  | _ =>
    match op with
    | 0x44 => (.neg, 0)
    | 0x45 => (.retn, 0)
    | 0x4D => (.retn, 0)
    | 0x46 => (.im 0, 0)
    | 0x56 => (.im 1, 0)
    | 0x5E => (.im 2, 0)
    | 0x47 => (.ldIA, 0)
    | 0x4F => (.ldRA, 0)
    | 0x57 => (.ldAI, 0)
    | 0x5F => (.ldAR, 0)
    | 0x67 => (.rrd, 0)
    | 0x6F => (.rld, 0)
    | _ => (.unimplemented (.ed op), 0)

/-- The block instructions, opcodes ED A0 to ED BF with low field 0 to 3: bit 4
    makes one repeat and bit 3 makes it count down. -/
def edBlock (op : Byte) : Instr :=
  let dir := if fieldQ op then Direction.down else .up
  let repeats := op.bit 4
  match fieldZ op with
  | 0 => .block .load dir repeats
  | 1 => .block .compare dir repeats
  | 2 => .block .input dir repeats
  | 3 => .block .output dir repeats
  | _ => .unimplemented (.ed op)

/-- The instruction of the bytes ED `op` followed by `n₁` and `n₂`, and the number
    of those bytes that belong to it. -/
def ed (op n₁ n₂ : Byte) : Instr × Nat :=
  match op >>> 5 with
  | 2 | 3 => edMiddle op n₁ n₂
  | 5 => (edBlock op, 0)
  | _ => (.unimplemented (.ed op), 0)

/-! ## Prefixes -/

/-- The instruction after a DD or FD byte.  A prefix in front of another DD, FD
    or ED does nothing, and one in front of an opcode that it does not change
    costs an opcode fetch. -/
def indexed (x : Index) (b₁ b₂ b₃ : Byte) : Decoded :=
  match b₁ with
  | 0xDD => ⟨.nop, 1, false⟩
  | 0xFD => ⟨.nop, 1, false⟩
  | 0xED => ⟨.nop, 1, false⟩
  | 0xCB => ⟨indexCb x b₂ b₃, 4, true⟩
  | _ =>
    let (instr, n) := main (if indexAffects b₁ then some x else none) b₁ b₂ b₃
    ⟨instr, 2 + n, true⟩

end Decode

/-- The instruction at the start of four bytes. -/
def decode (b₀ b₁ b₂ b₃ : Byte) : Decoded :=
  match b₀ with
  | 0xCB => ⟨Decode.cb b₁, 2, true⟩
  | 0xDD => Decode.indexed .ix b₁ b₂ b₃
  | 0xFD => Decode.indexed .iy b₁ b₂ b₃
  | 0xED =>
    let (instr, n) := Decode.ed b₁ b₂ b₃
    ⟨instr, 2 + n, true⟩
  | _ =>
    let (instr, n) := Decode.main none b₀ b₁ b₂
    ⟨instr, 1 + n, false⟩

end Z80
