/-
  Z80.Proofs.Encoding

  The decoder as a table of opcode pages.

  An instruction is found by its page and its opcode; the two bytes behind the
  opcode are only put into it (`Page.decode_eq_withBytes`).  What holds of an
  instruction whatever its immediate bytes are is therefore a fact about eight
  pages of 256 opcodes, and can be read off them (`Page.forall_opcode`).
-/

import Z80.Step

namespace Z80

/-! ## Pages -/

/-- A page of opcodes, with the index register that a DD or FD byte selects. -/
inductive Page where
  /-- The opcodes without a prefix, or behind a DD or FD byte. -/
  | main (x? : Option Index)
  /-- The opcodes behind CB. -/
  | cb
  /-- The opcodes behind DD CB or FD CB and a displacement. -/
  | indexCb (x : Index)
  /-- The opcodes behind ED. -/
  | ed
  /-- A DD or FD byte in front of a DD, FD or ED byte. -/
  | idle
  deriving DecidableEq, Repr

/-- The byte that selects an index register. -/
def Index.code : Index → Byte
  | .ix => 0xDD
  | .iy => 0xFD

/-- An instruction as it stands in memory: the page, the opcode and the two
    bytes that may be its immediate operands. -/
structure Encoding where
  page : Page
  op : Byte
  n₁ : Byte
  n₂ : Byte
  deriving DecidableEq, Repr

namespace Encoding

/-- The encoding at the start of three bytes that follow a DD or FD byte.  The
    displacement of the CB page comes before its opcode. -/
def behindIndex (x : Index) (b₁ b₂ b₃ : Byte) : Encoding :=
  if b₁ = 0xDD ∨ b₁ = 0xFD ∨ b₁ = 0xED then ⟨.idle, b₁, b₂, b₃⟩
  else if b₁ = 0xCB then ⟨.indexCb x, b₃, b₂, 0⟩
  else ⟨.main (some x), b₁, b₂, b₃⟩

/-- The encoding at the start of four bytes. -/
def ofBytes (b₀ b₁ b₂ b₃ : Byte) : Encoding :=
  if b₀ = 0xCB then ⟨.cb, b₁, b₂, b₃⟩
  else if b₀ = 0xED then ⟨.ed, b₁, b₂, b₃⟩
  else if b₀ = Index.ix.code then behindIndex .ix b₁ b₂ b₃
  else if b₀ = Index.iy.code then behindIndex .iy b₁ b₂ b₃
  else ⟨.main none, b₀, b₁, b₂⟩

end Encoding

namespace Page

/-- The instruction of an opcode of a page with the bytes behind it. -/
def decode (p : Page) (op n₁ n₂ : Byte) : Decoded :=
  match p with
  | main none =>
    let r := Decode.main none op n₁ n₂
    ⟨r.1, 1 + r.2, false⟩
  | main (some x) =>
    let r := Decode.main (if Decode.indexAffects op then some x else none) op n₁ n₂
    ⟨r.1, 2 + r.2, true⟩
  | cb => ⟨Decode.cb op, 2, true⟩
  | indexCb x => ⟨Decode.indexCb x n₁ op, 4, true⟩
  | ed =>
    let r := Decode.ed op n₁ n₂
    ⟨r.1, 2 + r.2, true⟩
  | idle => ⟨.nop, 1, false⟩

/-- The condition that bits 5 to 3 of a main-page opcode name. -/
def condition (op : Byte) : Cond :=
  [.nz, .z, .nc, .c, .po, .pe, .p, .m].getD (op.toNat / 8 % 8) .nz

end Page

/-- What a DD or FD byte makes of the three bytes behind it, and what the decoder makes
    of all four. -/
theorem decode_code (x : Index) (b₁ b₂ b₃ : Byte) :
    decode x.code b₁ b₂ b₃ = Decode.indexed x b₁ b₂ b₃ := by
  cases x <;> rfl

/-- Behind a DD or FD byte the decoder finds the page first and then the opcode on it. -/
theorem indexed_eq_decode (x : Index) (b₁ b₂ b₃ : Byte) :
    Decode.indexed x b₁ b₂ b₃ =
      let e := Encoding.behindIndex x b₁ b₂ b₃
      e.page.decode e.op e.n₁ e.n₂ := by
  unfold Decode.indexed Encoding.behindIndex
  split
  case h_1 => rfl
  case h_2 => rfl
  case h_3 => rfl
  case h_4 => rfl
  case h_5 hdd hfd hed hcb =>
    have hidle : ¬(b₁ = 0xDD ∨ b₁ = 0xFD ∨ b₁ = 0xED) := by
      rintro (h | h | h)
      · exact hdd h
      · exact hfd h
      · exact hed h
    rw [if_neg hidle, if_neg hcb]
    rfl

/-- The decoder finds the page first and then the opcode on it. -/
theorem decode_eq_decode (b₀ b₁ b₂ b₃ : Byte) :
    decode b₀ b₁ b₂ b₃ =
      let e := Encoding.ofBytes b₀ b₁ b₂ b₃
      e.page.decode e.op e.n₁ e.n₂ := by
  unfold decode Encoding.ofBytes
  split
  case h_1 => rfl
  case h_2 => exact indexed_eq_decode .ix b₁ b₂ b₃
  case h_3 => exact indexed_eq_decode .iy b₁ b₂ b₃
  case h_4 => rfl
  case h_5 hcb hdd hfd hed =>
    rw [if_neg hcb, if_neg hed, if_neg (show ¬b₀ = Index.ix.code from hdd),
      if_neg (show ¬b₀ = Index.iy.code from hfd)]
    rfl

/-! ## Immediate bytes -/

/-- Whether an operand has a displacement. -/
def Operand.hasDisp : Operand → Bool
  | indexed _ _ => true
  | _ => false

/-- The operand with another displacement, if it has one. -/
def Operand.withDisp (d : Int8) : Operand → Operand
  | indexed x _ => indexed x d
  | o => o

/-- The instruction with the bytes `n₁` and `n₂` in the place of its immediate
    operands.  A displacement comes first. -/
def Instr.withBytes (n₁ n₂ : Byte) : Instr → Instr
  | ld dst src => ld (dst.withDisp n₁.toInt8) (src.withDisp n₁.toInt8)
  | ldByte dst _ => ldByte (dst.withDisp n₁.toInt8) (if dst.hasDisp then n₂ else n₁)
  | ldAFrom _ => ldAFrom (Word.ofBytes n₂ n₁)
  | ldATo _ => ldATo (Word.ofBytes n₂ n₁)
  | ldWord rr _ => ldWord rr (Word.ofBytes n₂ n₁)
  | ldPairFrom rr _ => ldPairFrom rr (Word.ofBytes n₂ n₁)
  | ldPairTo rr _ => ldPairTo rr (Word.ofBytes n₂ n₁)
  | alu op src => alu op (src.withDisp n₁.toInt8)
  | aluByte op _ => aluByte op n₁
  | inc dst => inc (dst.withDisp n₁.toInt8)
  | dec dst => dec (dst.withDisp n₁.toInt8)
  | rot op target copy => rot op (target.withDisp n₁.toInt8) copy
  | bit n src => bit n (src.withDisp n₁.toInt8)
  | res n target copy => res n (target.withDisp n₁.toInt8) copy
  | set n target copy => set n (target.withDisp n₁.toInt8) copy
  | jp cc? _ => jp cc? (Word.ofBytes n₂ n₁)
  | jr cc? _ => jr cc? n₁.toInt8
  | djnz _ => djnz n₁.toInt8
  | call cc? _ => call cc? (Word.ofBytes n₂ n₁)
  | inA _ => inA n₁
  | outA _ => outA n₁
  | unimplemented (.indexCb x _ op) => unimplemented (.indexCb x n₁.toInt8 op)
  | i => i

theorem Operand.withDisp_plain (field : Byte) (d : Int8) :
    (Operand.plain field).withDisp d = Operand.plain field := by
  unfold Operand.plain
  cases Reg8.ofField? field <;> rfl

theorem Operand.ofField_eq_withDisp (field : Byte) (x? : Option Index) (d : Int8) :
    Operand.ofField field x? d = (Operand.ofField field x? 0).withDisp d := by
  cases x? with
  | none => exact (Operand.withDisp_plain field d).symm
  | some x =>
    dsimp only [Operand.ofField]
    split
    · rfl
    · rfl
    · rfl
    · exact (Operand.withDisp_plain field d).symm

/-- A field that does not select memory leaves no room for a displacement. -/
theorem Operand.withDisp_ofField {field : Byte} (h : field &&& 7 ≠ 6) (x? : Option Index)
    (d e : Int8) : (Operand.ofField field x? e).withDisp d = Operand.ofField field x? e := by
  cases x? with
  | none => exact Operand.withDisp_plain field d
  | some x =>
    dsimp only [Operand.ofField]
    split
    case h_1 => rfl
    case h_2 => rfl
    case h_3 h6 => exact absurd h6 h
    case h_4 => exact Operand.withDisp_plain field d

namespace Decode

theorem fieldY_and_seven (op : Byte) : fieldY op &&& 7 = fieldY op := by
  simp [fieldY, UInt8.and_assoc]

theorem fieldZ_and_seven (op : Byte) : fieldZ op &&& 7 = fieldZ op := by
  simp [fieldZ, UInt8.and_assoc]

theorem displacementSize_none (field : Byte) : displacementSize field none = 0 := by
  unfold displacementSize
  split <;> simp_all

theorem displacementSize_some (field : Byte) (x : Index) :
    displacementSize field (some x) = if field &&& 7 = 6 then 1 else 0 := by
  unfold displacementSize
  by_cases h : field &&& 7 = 6 <;> simp [h]

/-- LD r,n takes `n` from behind the displacement if there is one. -/
private theorem ldByte_eq_withBytes (field : Byte) (x? : Option Index) (n₁ n₂ n : Byte) :
    Instr.ldByte (.ofField field x? n₁.toInt8)
        (if displacementSize field x? == 1 then n₂ else n₁) =
      (Instr.ldByte (.ofField field x? 0) n).withBytes n₁ n₂ := by
  cases x? with
  | none =>
    rw [displacementSize_none]
    dsimp only [Operand.ofField, Operand.plain]
    cases Reg8.ofField? field <;> rfl
  | some x =>
    rw [displacementSize_some]
    dsimp only [Operand.ofField]
    split
    case h_1 h => rw [h]; rfl
    case h_2 h => rw [h]; rfl
    case h_3 h => rw [h]; rfl
    case h_4 _ _ h =>
      rw [if_neg h]
      dsimp only [Operand.plain]
      cases Reg8.ofField? field <;> rfl

private theorem mainLow_eq_withBytes (x? : Option Index) (op n₁ n₂ : Byte) :
    mainLow x? op n₁ n₂ =
      ((mainLow x? op 0 0).1.withBytes n₁ n₂, (mainLow x? op 0 0).2) := by
  unfold mainLow
  dsimp only
  split
  case h_1 => split <;> rfl
  case h_2 => split <;> rfl
  case h_3 => split <;> rfl
  case h_4 => split <;> rfl
  case h_5 => rw [Operand.ofField_eq_withDisp]; rfl
  case h_6 => rw [Operand.ofField_eq_withDisp]; rfl
  case h_7 => exact Prod.ext (ldByte_eq_withBytes _ _ _ _ 0) rfl
  case h_8 => split <;> rfl

private theorem mainLoad_eq_withBytes (x? : Option Index) (op n₁ n₂ : Byte) :
    mainLoad x? op n₁ =
      ((mainLoad x? op 0).1.withBytes n₁ n₂, (mainLoad x? op 0).2) := by
  unfold mainLoad
  dsimp only
  split
  · rfl
  · split
    · rw [Operand.ofField_eq_withDisp]
      simp only [Instr.withBytes, Operand.withDisp_plain]
      rfl
    · split
      · rw [Operand.ofField_eq_withDisp]
        simp only [Instr.withBytes, Operand.withDisp_plain]
        rfl
      · rename_i hy hz
        have hy' : fieldY op &&& 7 ≠ 6 := by simpa [fieldY_and_seven] using hy
        have hz' : fieldZ op &&& 7 ≠ 6 := by simpa [fieldZ_and_seven] using hz
        simp only [Instr.withBytes, Operand.withDisp_ofField hy', Operand.withDisp_ofField hz']

private theorem mainHigh_eq_withBytes (x? : Option Index) (op n₁ n₂ : Byte) :
    mainHigh x? op n₁ n₂ =
      ((mainHigh x? op 0 0).1.withBytes n₁ n₂, (mainHigh x? op 0 0).2) := by
  unfold mainHigh
  dsimp only
  split
  case h_1 => rfl
  case h_2 =>
    split
    · split <;> rfl
    · rfl
  case h_3 => rfl
  case h_4 => split <;> rfl
  case h_5 => rfl
  case h_6 =>
    split
    · split <;> rfl
    · rfl
  case h_7 => rfl
  case h_8 => rfl

/-- The bytes behind a main-page opcode are only put into its instruction. -/
theorem main_eq_withBytes (x? : Option Index) (op n₁ n₂ : Byte) :
    main x? op n₁ n₂ = ((main x? op 0 0).1.withBytes n₁ n₂, (main x? op 0 0).2) := by
  unfold main
  split
  case h_1 => exact mainLow_eq_withBytes x? op n₁ n₂
  case h_2 => exact mainLoad_eq_withBytes x? op n₁ n₂
  case h_3 => rw [Operand.ofField_eq_withDisp]; rfl
  case h_4 => exact mainHigh_eq_withBytes x? op n₁ n₂

private theorem edMiddle_eq_withBytes (op n₁ n₂ : Byte) :
    edMiddle op n₁ n₂ = ((edMiddle op 0 0).1.withBytes n₁ n₂, (edMiddle op 0 0).2) := by
  unfold edMiddle
  dsimp only
  split
  case h_1 => split <;> rfl
  case h_2 => split <;> rfl
  case h_3 => split <;> rfl
  case h_4 => split <;> rfl
  case h_5 => split <;> rfl

private theorem withBytes_edBlock (op n₁ n₂ : Byte) :
    (edBlock op).withBytes n₁ n₂ = edBlock op := by
  unfold edBlock
  dsimp only
  split <;> rfl

theorem ed_eq_withBytes (op n₁ n₂ : Byte) :
    ed op n₁ n₂ = ((ed op 0 0).1.withBytes n₁ n₂, (ed op 0 0).2) := by
  unfold ed
  split
  case h_1 => exact edMiddle_eq_withBytes op n₁ n₂
  case h_2 => exact edMiddle_eq_withBytes op n₁ n₂
  case h_3 => rw [withBytes_edBlock]
  case h_4 => rfl

theorem withBytes_cb (op n₁ n₂ : Byte) : (cb op).withBytes n₁ n₂ = cb op := by
  unfold cb bits
  split
  case h_1 => cases RotOp.ofField? (fieldY op) <;> simp [Instr.withBytes, Operand.withDisp_plain]
  case h_2 => simp [Instr.withBytes, Operand.withDisp_plain]
  case h_3 => simp [Instr.withBytes, Operand.withDisp_plain]
  case h_4 => simp [Instr.withBytes, Operand.withDisp_plain]

theorem indexCb_eq_withBytes (x : Index) (op n₁ n₂ : Byte) :
    indexCb x n₁ op = (indexCb x 0 op).withBytes n₁ n₂ := by
  unfold indexCb bits
  split
  case h_1 => cases RotOp.ofField? (fieldY op) <;> rfl
  case h_2 => rfl
  case h_3 => rfl
  case h_4 => rfl

end Decode

namespace Page

/-- The instruction of an opcode of a page whatever the bytes behind it are: its
    immediate operands are zero. -/
def template (p : Page) (op : Byte) : Decoded :=
  p.decode op 0 0

/-- The bytes behind an opcode are only put into its instruction. -/
theorem decode_eq_withBytes (p : Page) (op n₁ n₂ : Byte) :
    p.decode op n₁ n₂ =
      { p.template op with instr := (p.template op).instr.withBytes n₁ n₂ } := by
  cases p with
  | main x? =>
    cases x? <;> simp only [decode, template, Decode.main_eq_withBytes _ op n₁ n₂]
  | cb => simp only [decode, template, Decode.withBytes_cb]
  | indexCb x => simp only [decode, template, ← Decode.indexCb_eq_withBytes x op n₁ n₂]
  | ed => simp only [decode, template, Decode.ed_eq_withBytes op n₁ n₂]
  | idle => rfl

/-- All pages. -/
def all : List Page :=
  [.main none, .main (some .ix), .main (some .iy), .cb, .indexCb .ix, .indexCb .iy, .ed, .idle]

theorem mem_all (p : Page) : p ∈ all := by
  match p with
  | main none | main (some .ix) | main (some .iy) | cb | indexCb .ix | indexCb .iy | ed
  | idle => decide

/-- A property of the opcodes of all pages holds when it holds of each of them. -/
theorem forall_opcode {P : Page → Byte → Prop}
    (h : ∀ p ∈ all, ∀ i : Fin 256, P p (UInt8.ofFin i)) (p : Page) (op : Byte) : P p op :=
  Byte.forall_iff.mpr (h p (mem_all p)) op

/-- A property of opcodes that the prefix bytes have not. -/
theorem ne_prefix {P : Byte → Bool} (hP : [0xCB, 0xDD, 0xFD, 0xED].any P = false)
    {op : Byte} (h : P op = true) : op ≠ 0xCB ∧ ¬(op = 0xDD ∨ op = 0xFD ∨ op = 0xED) := by
  have hne (b : Byte) (hb : b ∈ [0xCB, 0xDD, 0xFD, 0xED]) : op ≠ b := by
    rintro rfl
    exact List.any_eq_false.mp hP op hb h
  refine ⟨hne 0xCB (by simp), ?_⟩
  rintro (hdd | hfd | hed)
  · exact hne 0xDD (by simp) hdd
  · exact hne 0xFD (by simp) hfd
  · exact hne 0xED (by simp) hed

end Page

/-- An opcode that is no prefix is on the main page. -/
theorem Encoding.ofBytes_main {b₀ : Byte}
    (h : b₀ ≠ 0xCB ∧ ¬(b₀ = 0xDD ∨ b₀ = 0xFD ∨ b₀ = 0xED)) (b₁ b₂ b₃ : Byte) :
    ofBytes b₀ b₁ b₂ b₃ = ⟨.main none, b₀, b₁, b₂⟩ := by
  obtain ⟨hcb, hidle⟩ := h
  have hix : b₀ ≠ Index.ix.code := fun h => hidle (.inl h)
  have hiy : b₀ ≠ Index.iy.code := fun h => hidle (.inr (.inl h))
  have hed : b₀ ≠ 0xED := fun h => hidle (.inr (.inr h))
  rw [ofBytes, if_neg hcb, if_neg hed, if_neg hix, if_neg hiy]

/-! ## The instruction at the program counter -/

namespace Machine

/-- The encoding of the instruction at the program counter. -/
def encoding (m : Machine) : Encoding :=
  .ofBytes (m.mem.get m.pc) (m.mem.get (m.pc + 1)) (m.mem.get (m.pc + 2)) (m.mem.get (m.pc + 3))

/-- The opcode of the instruction at the program counter without its operands. -/
def template (m : Machine) : Decoded :=
  m.encoding.page.template m.encoding.op

theorem current_eq_withBytes (m : Machine) :
    m.current = { m.template with
      instr := m.template.instr.withBytes m.encoding.n₁ m.encoding.n₂ } := by
  unfold current template encoding
  rw [decode_eq_decode]
  exact Page.decode_eq_withBytes _ _ _ _

/-- The instruction at the program counter with its operands. -/
def instr (m : Machine) : Instr :=
  m.template.instr.withBytes m.encoding.n₁ m.encoding.n₂

/-- The machine that has fetched the instruction at the program counter. -/
def fetched (m : Machine) : Machine :=
  m.fetch m.template

/-- The instruction at the program counter is fetched and then has its effect. -/
theorem execute_current (m : Machine) :
    m.execute m.current = { m.instr.effect (m.instr.taken m.fetched) m.fetched with
      cycles := fetchTime m.template + m.instr.tail (m.instr.taken m.fetched) } := by
  rw [current_eq_withBytes]
  rfl

theorem step_eq_effect {m : Machine} (h : m.halted = false) :
    m.step = { m.instr.effect (m.instr.taken m.fetched) m.fetched with
      cycles := fetchTime m.template + m.instr.tail (m.instr.taken m.fetched) } := by
  rw [step_of_running h, execute_current]

/-- The machine at power-on with code in memory and the program counter on it. -/
def atCode (pc : Word) (code : List Byte) : Machine :=
  { initial {} with
    mem := Space.zero.load pc code
    regs := { Registers.initial with pc } }

end Machine

end Z80
