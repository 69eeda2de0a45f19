/-
  Z80.Proofs.Machine

  What each operation of the machine does to the program counter, to memory and
  to the ports.

  Only jumps, calls and returns move the program counter; only stores, stack
  pushes and writes to a memory operand change memory; only an output changes
  the ports.
-/

import Z80.Step

namespace Z80

/-! ## Spaces that differ in a few cells -/

namespace Space

/-- The space `t` holds the bytes of `s` in every cell but those of `cells`. -/
def SameOutside (cells : List Word) (s t : Space) : Prop :=
  ∀ a, a ∉ cells → t.get a = s.get a

theorem sameOutside_of_eq {cells : List Word} {s t : Space} (h : t = s) :
    SameOutside cells s t :=
  fun a _ => congrArg (·.get a) h

theorem SameOutside.trans {cells : List Word} {s t u : Space} (hst : SameOutside cells s t)
    (htu : SameOutside cells t u) : SameOutside cells s u :=
  fun a ha => (htu a ha).trans (hst a ha)

theorem SameOutside.mono {cells cells' : List Word} {s t : Space} (h : SameOutside cells s t)
    (hsub : cells ⊆ cells') : SameOutside cells' s t :=
  fun a ha => h a fun hmem => ha (hsub hmem)

/-- Spaces that differ nowhere are equal. -/
theorem eq_of_sameOutside_nil {s t : Space} (h : SameOutside [] s t) : t = s :=
  ext_get fun a => h a List.not_mem_nil

theorem sameOutside_set (s : Space) (a : Word) (v : Byte) : SameOutside [a] s (s.set a v) := by
  intro b hb
  rw [List.mem_singleton] at hb
  exact get_set_of_ne s v hb

theorem sameOutside_setWord (s : Space) (a w : Word) :
    SameOutside [a, a + 1] s (s.setWord a w) := by
  intro b hb
  simp only [List.mem_cons, List.not_mem_nil, or_false, not_or] at hb
  rw [get_setWord, if_neg hb.2, if_neg hb.1]

end Space

namespace Machine

variable (m : Machine)

/-! ## The program counter -/

@[simp] theorem pc_setFlags (f : Flags) : (m.setFlags f).regs.pc = m.regs.pc := rfl

@[simp] theorem pc_setReg (r : Reg8) (v : Byte) : (m.setReg r v).regs.pc = m.regs.pc := rfl

@[simp] theorem pc_setA (v : Byte) : (m.setA v).regs.pc = m.regs.pc := rfl

@[simp] theorem pc_setAf (v : Byte) (f : Flags) : (m.setAf v f).regs.pc = m.regs.pc := rfl

@[simp] theorem pc_setPair (rr : Pair) (w : Word) : (m.setPair rr w).regs.pc = m.regs.pc := by
  cases rr with
  | bank rr => rfl
  | sp => rfl
  | index x => cases x <;> rfl

@[simp] theorem pc_setPc (w : Word) : (m.setPc w).regs.pc = w := rfl

@[simp] theorem pc_store (a : Word) (v : Byte) : (m.store a v).regs.pc = m.regs.pc := rfl

@[simp] theorem pc_storeWord (a w : Word) : (m.storeWord a w).regs.pc = m.regs.pc := rfl

@[simp] theorem pc_output (p : Word) (v : Byte) : (m.output p v).regs.pc = m.regs.pc := rfl

@[simp] theorem pc_write (o : Operand) (v : Byte) : (m.write o v).regs.pc = m.regs.pc := by
  cases o with
  | reg r => rfl
  | high x => cases x <;> rfl
  | low x => cases x <;> rfl
  | hl => rfl
  | indexed x d => rfl

@[simp] theorem pc_copyTo (r? : Option Reg8) (v : Byte) : (m.copyTo r? v).regs.pc = m.regs.pc := by
  cases r? <;> rfl

@[simp] theorem pc_push (w : Word) : (m.push w).regs.pc = m.regs.pc := rfl

@[simp] theorem pc_drop : m.drop.regs.pc = m.regs.pc := rfl

@[simp] theorem pc_alu (op : AluOp) (v : Byte) : (m.alu op v).regs.pc = m.regs.pc := rfl

@[simp] theorem pc_rotate (op : RotOp) (target : Operand) (copy : Option Reg8) :
    (m.rotate op target copy).regs.pc = m.regs.pc := by
  simp [rotate]

@[simp] theorem pc_replace (dst : Operand) (v : Byte) (f : Flags) :
    (m.replace dst v f).regs.pc = m.regs.pc := by
  simp [replace]

@[simp] theorem pc_rotateDigits (r : Byte × Byte) : (m.rotateDigits r).regs.pc = m.regs.pc := rfl

@[simp] theorem pc_block (op : BlockOp) (dir : Direction) : (m.block op dir).regs.pc = m.regs.pc := by
  cases op <;> rfl

@[simp] theorem pc_jumpIf (taken : Bool) (w : Word) :
    (m.jumpIf taken w).regs.pc = if taken then w else m.regs.pc := by
  cases taken <;> rfl

@[simp] theorem pc_callIf (taken : Bool) (w : Word) :
    (m.callIf taken w).regs.pc = if taken then w else m.regs.pc := by
  cases taken <;> rfl

@[simp] theorem pc_returnIf (taken : Bool) :
    (m.returnIf taken).regs.pc = if taken then m.top else m.regs.pc := by
  cases taken <;> rfl

/-! ## Memory -/

@[simp] theorem mem_setFlags (f : Flags) : (m.setFlags f).mem = m.mem := rfl

@[simp] theorem mem_setReg (r : Reg8) (v : Byte) : (m.setReg r v).mem = m.mem := rfl

@[simp] theorem mem_setA (v : Byte) : (m.setA v).mem = m.mem := rfl

@[simp] theorem mem_setAf (v : Byte) (f : Flags) : (m.setAf v f).mem = m.mem := rfl

@[simp] theorem mem_setPair (rr : Pair) (w : Word) : (m.setPair rr w).mem = m.mem := by
  cases rr <;> rfl

@[simp] theorem mem_setPc (w : Word) : (m.setPc w).mem = m.mem := rfl

@[simp] theorem mem_store (a : Word) (v : Byte) : (m.store a v).mem = m.mem.set a v := rfl

@[simp] theorem mem_storeWord (a w : Word) : (m.storeWord a w).mem = m.mem.setWord a w := rfl

@[simp] theorem mem_output (p : Word) (v : Byte) : (m.output p v).mem = m.mem := rfl

/-- A write changes memory only if the operand has an address. -/
@[simp] theorem mem_write (o : Operand) (v : Byte) :
    (m.write o v).mem = ((m.address? o).map (m.mem.set · v)).getD m.mem := by
  cases o <;> rfl

@[simp] theorem mem_copyTo (r? : Option Reg8) (v : Byte) : (m.copyTo r? v).mem = m.mem := by
  cases r? <;> rfl

@[simp] theorem mem_push (w : Word) : (m.push w).mem = m.mem.setWord (m.regs.sp - 2) w := rfl

@[simp] theorem mem_drop : m.drop.mem = m.mem := rfl

@[simp] theorem mem_alu (op : AluOp) (v : Byte) : (m.alu op v).mem = m.mem := rfl

@[simp] theorem mem_rotate (op : RotOp) (target : Operand) (copy : Option Reg8) :
    (m.rotate op target copy).mem =
      (m.write target (op.apply (m.read target) m.flags.c).1).mem :=
  mem_copyTo _ copy _

@[simp] theorem mem_jumpIf (taken : Bool) (w : Word) : (m.jumpIf taken w).mem = m.mem := by
  cases taken <;> rfl

@[simp] theorem mem_returnIf (taken : Bool) : (m.returnIf taken).mem = m.mem := by
  cases taken <;> rfl

/-! ## Ports -/

@[simp] theorem ports_setFlags (f : Flags) : (m.setFlags f).ports = m.ports := rfl

@[simp] theorem ports_setPair (rr : Pair) (w : Word) : (m.setPair rr w).ports = m.ports := by
  cases rr <;> rfl

@[simp] theorem ports_setReg (r : Reg8) (v : Byte) : (m.setReg r v).ports = m.ports := rfl

@[simp] theorem ports_setA (v : Byte) : (m.setA v).ports = m.ports := rfl

@[simp] theorem ports_setAf (v : Byte) (f : Flags) : (m.setAf v f).ports = m.ports := rfl

@[simp] theorem ports_setPc (w : Word) : (m.setPc w).ports = m.ports := rfl

@[simp] theorem ports_output (p : Word) (v : Byte) :
    (m.output p v).ports = m.ports.set p v := rfl

@[simp] theorem ports_write (o : Operand) (v : Byte) : (m.write o v).ports = m.ports := by
  cases o <;> rfl

@[simp] theorem ports_store (a : Word) (v : Byte) : (m.store a v).ports = m.ports := rfl

@[simp] theorem ports_storeWord (a w : Word) : (m.storeWord a w).ports = m.ports := rfl

@[simp] theorem ports_push (w : Word) : (m.push w).ports = m.ports := rfl

@[simp] theorem ports_drop : m.drop.ports = m.ports := rfl

@[simp] theorem ports_alu (op : AluOp) (v : Byte) : (m.alu op v).ports = m.ports := rfl

@[simp] theorem ports_copyTo (r? : Option Reg8) (v : Byte) :
    (m.copyTo r? v).ports = m.ports := by
  cases r? <;> rfl

@[simp] theorem ports_rotate (op : RotOp) (target : Operand) (copy : Option Reg8) :
    (m.rotate op target copy).ports = m.ports := by
  simp [rotate]

@[simp] theorem ports_replace (dst : Operand) (v : Byte) (f : Flags) :
    (m.replace dst v f).ports = m.ports := by
  simp [replace]

@[simp] theorem ports_rotateDigits (r : Byte × Byte) : (m.rotateDigits r).ports = m.ports := rfl

@[simp] theorem ports_jumpIf (taken : Bool) (w : Word) :
    (m.jumpIf taken w).ports = m.ports := by
  cases taken <;> rfl

@[simp] theorem ports_callIf (taken : Bool) (w : Word) :
    (m.callIf taken w).ports = m.ports := by
  cases taken <;> rfl

@[simp] theorem ports_returnIf (taken : Bool) : (m.returnIf taken).ports = m.ports := by
  cases taken <;> rfl

/-! ## Register pairs -/

theorem pair_setPair (rr ss : Pair) (w : Word) :
    (m.setPair rr w).pair ss = if ss = rr then w else m.pair ss := by
  cases rr with
  | bank rr =>
    cases ss with
    | bank ss => simpa [setPair, pair] using m.regs.main.pair_setPair rr ss w
    | sp => rfl
    | index x => cases x <;> rfl
  | sp =>
    cases ss with
    | bank ss => rfl
    | sp => rfl
    | index x => cases x <;> rfl
  | index x =>
    cases ss with
    | bank ss => cases x <;> rfl
    | sp => cases x <;> rfl
    | index y => simpa [setPair, pair] using m.regs.index_setIndex x y w

/-- F is the low half of AF and of no other pair. -/
theorem pair_setFlags (f : Flags) {rr : Pair} (h : rr ≠ .bank .af) :
    (m.setFlags f).pair rr = m.pair rr := by
  cases rr with
  | bank rr =>
    cases rr with
    | af => exact absurd rfl h
    | _ => rfl
  | sp => rfl
  | index x => cases x <;> rfl

/-! ## Fetching -/

theorem pair_fetch (d : Decoded) (rr : Pair) : (m.fetch d).pair rr = m.pair rr := by
  cases rr with
  | index x => cases x <;> rfl
  | _ => rfl

/-- A fetch moves the program counter and R, which no operand is read from. -/
theorem read_fetch (d : Decoded) (o : Operand) : (m.fetch d).read o = m.read o := by
  cases o with
  | high x => cases x <;> rfl
  | low x => cases x <;> rfl
  | indexed x disp => cases x <;> rfl
  | _ => rfl

theorem address?_fetch (d : Decoded) (o : Operand) :
    (m.fetch d).address? o = m.address? o := by
  cases o with
  | indexed x disp => cases x <;> rfl
  | _ => rfl

end Machine

end Z80
