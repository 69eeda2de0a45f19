/-
  Z80.Proofs.RegisterViews

  The register file as twenty independent bytes.

  Registers are written and read as bytes, as pairs, as index registers and their halves and
  as single flags, and what is written through one of these shows through the others.  Under
  all of them lies an assignment of bytes to names (`RegByte`): the sixteen of the two banks
  and the four halves of IX and IY.

    * `bytes_apply`: each way of writing replaces the bytes that it names and no others.
    * `read_eq_ofBytes`: each way of reading is a number made of the bytes that it names.

  So after any sequence of writes, every reading is what the bytes say
  (`registers_refine_bytes`).  The same holds where registers, pairs and flags are found by
  their places in two arrays and by masks.
-/

import Mathlib.Logic.Function.Basic
import Z80.Proofs.Checked.Storage

namespace Z80

/-! ## Bits of F -/

/-- The bit of F that a flag is. -/
def Flag.position : Flag → Nat
  | c => 0
  | n => 1
  | pv => 2
  | x => 3
  | h => 4
  | y => 5
  | z => 6
  | s => 7

/-- The byte with one bit replaced. -/
def Byte.withBit (b : Byte) (i : Nat) (on : Bool) : Byte :=
  if on then b ||| ((1 : Byte) <<< i.toUInt8) else b &&& ~~~((1 : Byte) <<< i.toUInt8)

/-- The other bits stay. -/
theorem Byte.bit_withBit (b : Byte) (flag other : Flag) (on : Bool) :
    (b.withBit flag.position on).bit other.position =
      if other = flag then on else b.bit other.position := by
  -- the mask has the bit of its flag and no other
  have hset : ((1 : Byte) <<< flag.position.toUInt8).toNat.testBit other.position =
      decide (other = flag) := by
    cases flag <;> cases other <;> decide
  have hclear : (~~~((1 : Byte) <<< flag.position.toUInt8)).toNat.testBit other.position =
      !decide (other = flag) := by
    cases flag <;> cases other <;> decide
  cases on with
  | true =>
    show (b ||| ((1 : Byte) <<< flag.position.toUInt8)).toNat.testBit other.position = _
    rw [UInt8.toNat_or, Nat.testBit_or, hset]
    by_cases h : other = flag <;> simp [h, bit]
  | false =>
    show (b &&& ~~~((1 : Byte) <<< flag.position.toUInt8)).toNat.testBit other.position = _
    rw [UInt8.toNat_and, Nat.testBit_and, hclear]
    by_cases h : other = flag <;> simp [h, bit]

/-- A byte is determined by its eight bits. -/
theorem Byte.eq_of_bits {a b : Byte}
    (h : ∀ flag : Flag, a.bit flag.position = b.bit flag.position) : a = b := by
  have hflags : Flags.ofByte a = Flags.ofByte b := by
    rw [Flags.ofByte, Flags.ofByte, Flags.mk.injEq]
    exact ⟨h .s, h .z, h .y, h .h, h .x, h .pv, h .n, h .c⟩
  rw [← Flags.toByte_ofByte a, hflags, Flags.toByte_ofByte]

namespace Flags

/-- A flag is its bit of F. -/
theorem bit_toByte (f : Flags) (flag : Flag) : f.toByte.bit flag.position = f.get flag := by
  have hget (b : Byte) : b.bit flag.position = (ofByte b).get flag := by
    cases flag <;> rfl
  rw [hget, ofByte_toByte]

/-- Setting a flag replaces its bit of F. -/
theorem toByte_set (f : Flags) (flag : Flag) (on : Bool) :
    (f.set flag on).toByte = f.toByte.withBit flag.position on := by
  apply Byte.eq_of_bits
  intro other
  rw [bit_toByte, get_set, Byte.bit_withBit, bit_toByte]

end Flags

/-! ## The bytes -/

/-- One of the two banks. -/
inductive Side where
  | main | shadow
  deriving DecidableEq

/-- The other bank. -/
def Side.other : Side → Side
  | main => shadow
  | shadow => main

/-- The names of the bytes of the register file. -/
inductive RegByte where
  | bank (s : Side) (r : Reg8)
  | high (x : Index)
  | low (x : Index)
  deriving DecidableEq

/-- The name of the same register in the other bank, if it is one of `rs`. -/
def RegByte.exchanged (rs : List Reg8) : RegByte → RegByte
  | bank s r => bank (if r ∈ rs then s.other else s) r
  | p => p

namespace Registers

/-- One of the two banks of the registers. -/
def bank (k : Registers) : Side → Bank
  | .main => k.main
  | .shadow => k.shadow

/-- The registers with one of the two banks replaced. -/
def setBank (k : Registers) (s : Side) (b : Bank) : Registers :=
  match s with
  | .main => { k with main := b }
  | .shadow => { k with shadow := b }

/-- The bytes of the register file. -/
def bytes (k : Registers) : RegByte → Byte
  | .bank s r => (k.bank s).get r
  | .high x => k.indexHigh x
  | .low x => k.indexLow x

/-- The registers beside the bytes: SP, PC, I, R and the interrupt flip-flops. -/
def others (k : Registers) : Word × Word × Byte × Byte × Bool × Bool :=
  (k.sp, k.pc, k.i, k.r, k.iff1, k.iff2)

/-- Every assignment of bytes is that of some registers. -/
theorem exists_bytes (f : RegByte → Byte) : ∃ k : Registers, k.bytes = f := by
  let bank (s : Side) : Bank :=
    ⟨f (.bank s .a), .ofByte (f (.bank s .f)), f (.bank s .b), f (.bank s .c), f (.bank s .d),
      f (.bank s .e), f (.bank s .h), f (.bank s .l)⟩
  let index (x : Index) : Word := .ofBytes (f (.high x)) (f (.low x))
  refine ⟨{ initial with
    main := bank .main, shadow := bank .shadow, ix := index .ix, iy := index .iy }, ?_⟩
  funext p
  cases p with
  | bank s r => cases s <;> cases r <;> simp [bytes, Registers.bank, Bank.get, bank]
  | high x => cases x <;> exact Word.hi_ofBytes _ _
  | low x => cases x <;> exact Word.lo_ofBytes _ _

end Registers

/-! ## Writing -/

/-- The ways to write registers. -/
inductive RegWrite where
  /-- A register of a bank. -/
  | set (s : Side) (r : Reg8) (v : Byte)
  /-- A pair of a bank. -/
  | setPair (s : Side) (rr : Reg16) (v : Word)
  /-- An index register. -/
  | setIndex (x : Index) (v : Word)
  /-- The high half of an index register. -/
  | setHigh (x : Index) (v : Byte)
  /-- The low half of an index register. -/
  | setLow (x : Index) (v : Byte)
  /-- A flag. -/
  | setFlag (flag : Flag) (on : Bool)
  /-- EX AF,AF'. -/
  | exchangeAf
  /-- EXX. -/
  | exchangeMain

namespace RegWrite

/-- The registers after a write. -/
def apply (w : RegWrite) (k : Registers) : Registers :=
  match w with
  | set s r v => k.setBank s ((k.bank s).set r v)
  | setPair s rr v => k.setBank s ((k.bank s).setPair rr v)
  | setIndex x v => k.setIndex x v
  | setHigh x v => k.setIndexHigh x v
  | setLow x v => k.setIndexLow x v
  | setFlag flag on => { k with main := { k.main with f := k.main.f.set flag on } }
  | exchangeAf => k.exchangeAf
  | exchangeMain => k.exchangeMain

/-- What a write does to the bytes. -/
def onBytes (w : RegWrite) (f : RegByte → Byte) : RegByte → Byte :=
  match w with
  | set s r v => Function.update f (.bank s r) v
  | setPair s rr v =>
    Function.update (Function.update f (.bank s rr.high) v.hi) (.bank s rr.low) v.lo
  | setIndex x v => Function.update (Function.update f (.high x) v.hi) (.low x) v.lo
  | setHigh x v => Function.update f (.high x) v
  | setLow x v => Function.update f (.low x) v
  | setFlag flag on =>
    Function.update f (.bank .main .f) ((f (.bank .main .f)).withBit flag.position on)
  | exchangeAf => fun p => f (p.exchanged [.a, .f])
  | exchangeMain => fun p => f (p.exchanged [.b, .c, .d, .e, .h, .l])

end RegWrite

/-! ## Reading -/

/-- The ways to read registers. -/
inductive RegView where
  /-- A register of a bank. -/
  | get (s : Side) (r : Reg8)
  /-- A pair of a bank. -/
  | pair (s : Side) (rr : Reg16)
  /-- An index register. -/
  | index (x : Index)
  /-- The high half of an index register. -/
  | high (x : Index)
  /-- The low half of an index register. -/
  | low (x : Index)
  /-- A flag. -/
  | flag (bit : Flag)

namespace RegView

/-- What the registers show. -/
def read (v : RegView) (k : Registers) : Nat :=
  match v with
  | get s r => ((k.bank s).get r).toNat
  | pair s rr => ((k.bank s).pair rr).toNat
  | index x => (k.index x).toNat
  | high x => (k.indexHigh x).toNat
  | low x => (k.indexLow x).toNat
  | flag bit => (k.main.f.get bit).toNat

/-- What independent bytes show: a pair is 256 times its high byte and its low byte, and a
    flag is one bit of F. -/
def ofBytes (v : RegView) (f : RegByte → Byte) : Nat :=
  match v with
  | get s r => (f (.bank s r)).toNat
  | pair s rr => (f (.bank s rr.high)).toNat * 256 + (f (.bank s rr.low)).toNat
  | index x => (f (.high x)).toNat * 256 + (f (.low x)).toNat
  | high x => (f (.high x)).toNat
  | low x => (f (.low x)).toNat
  | flag bit => (f (.bank .main .f)).toNat / 2 ^ bit.position % 2

end RegView

/-! ## The bytes under writes and readings -/

namespace Registers

variable (k : Registers)

theorem bank_setBank (s t : Side) (b : Bank) :
    (k.setBank s b).bank t = if t = s then b else k.bank t := by
  cases s <;> cases t <;> rfl

theorem index_setBank (s : Side) (b : Bank) (x : Index) :
    (k.setBank s b).index x = k.index x := by
  cases s <;> cases x <;> rfl

theorem bank_setIndex (x : Index) (w : Word) (s : Side) : (k.setIndex x w).bank s = k.bank s := by
  cases x <;> cases s <;> rfl

theorem bytes_set (s : Side) (r : Reg8) (v : Byte) :
    (k.setBank s ((k.bank s).set r v)).bytes = Function.update k.bytes (.bank s r) v := by
  funext p
  cases p with
  | bank t q =>
    simp only [bytes, bank_setBank, Function.update_apply, RegByte.bank.injEq]
    by_cases h : t = s
    · simp [h, Bank.get_set]
    · simp [h]
  | high x => simp [bytes, indexHigh, index_setBank]
  | low x => simp [bytes, indexLow, index_setBank]

/-- A pair is written as its two bytes. -/
theorem bytes_setPair (s : Side) (rr : Reg16) (w : Word) :
    (k.setBank s ((k.bank s).setPair rr w)).bytes =
      Function.update (Function.update k.bytes (.bank s rr.high) w.hi) (.bank s rr.low) w.lo := by
  -- the low byte is written to the registers that the write of the high one leaves
  let high := k.setBank s ((k.bank s).set rr.high w.hi)
  have htwice : k.setBank s ((k.bank s).setPair rr w) =
      high.setBank s ((high.bank s).set rr.low w.lo) := by
    cases s <;> rfl
  rw [htwice, bytes_set, bytes_set]

theorem bytes_setIndex (x : Index) (w : Word) :
    (k.setIndex x w).bytes =
      Function.update (Function.update k.bytes (.high x) w.hi) (.low x) w.lo := by
  funext p
  cases p with
  | bank s r => simp [bytes, bank_setIndex]
  | high y => simp [bytes, indexHigh, index_setIndex, Function.update_apply, apply_ite Word.hi]
  | low y => simp [bytes, indexLow, index_setIndex, Function.update_apply, apply_ite Word.lo]

theorem bytes_setIndexHigh (x : Index) (v : Byte) :
    (k.setIndexHigh x v).bytes = Function.update k.bytes (.high x) v := by
  -- the low half is written too, as it was
  have hlow : k.indexLow x = Function.update k.bytes (.high x) v (.low x) := rfl
  rw [setIndexHigh, bytes_setIndex, Word.hi_ofBytes, Word.lo_ofBytes, hlow,
    Function.update_eq_self]

theorem bytes_setIndexLow (x : Index) (v : Byte) :
    (k.setIndexLow x v).bytes = Function.update k.bytes (.low x) v := by
  have hhigh : k.indexHigh x = k.bytes (.high x) := rfl
  rw [setIndexLow, bytes_setIndex, Word.hi_ofBytes, Word.lo_ofBytes, hhigh,
    Function.update_eq_self]

/-- Setting a flag writes F with one bit replaced. -/
theorem bytes_setFlag (flag : Flag) (on : Bool) :
    ({ k with main := { k.main with f := k.main.f.set flag on } } : Registers).bytes =
      Function.update k.bytes (.bank .main .f)
        ((k.bytes (.bank .main .f)).withBit flag.position on) := by
  have hwrite : ({ k with main := { k.main with f := k.main.f.set flag on } } : Registers) =
      k.setBank .main ((k.bank .main).set .f (k.main.f.set flag on).toByte) := by
    simp [setBank, Registers.bank, Bank.set]
  rw [hwrite, bytes_set, Flags.toByte_set]
  rfl

theorem bytes_exchangeAf : k.exchangeAf.bytes = fun p => k.bytes (p.exchanged [.a, .f]) := by
  funext p
  cases p with
  | bank s r => cases s <;> cases r <;> rfl
  | high x => cases x <;> rfl
  | low x => cases x <;> rfl

theorem bytes_exchangeMain :
    k.exchangeMain.bytes = fun p => k.bytes (p.exchanged [.b, .c, .d, .e, .h, .l]) := by
  funext p
  cases p with
  | bank s r => cases s <;> cases r <;> rfl
  | high x => cases x <;> rfl
  | low x => cases x <;> rfl

end Registers

/-- Each way of writing replaces the bytes that it names and no others. -/
theorem RegWrite.bytes_apply (w : RegWrite) (k : Registers) :
    (w.apply k).bytes = w.onBytes k.bytes := by
  cases w with
  | set s r v => exact k.bytes_set s r v
  | setPair s rr v => exact k.bytes_setPair s rr v
  | setIndex x v => exact k.bytes_setIndex x v
  | setHigh x v => exact k.bytes_setIndexHigh x v
  | setLow x v => exact k.bytes_setIndexLow x v
  | setFlag flag on => exact k.bytes_setFlag flag on
  | exchangeAf => exact k.bytes_exchangeAf
  | exchangeMain => exact k.bytes_exchangeMain

/-- Each way of reading is a number made of the bytes that it names. -/
theorem RegView.read_eq_ofBytes (v : RegView) (k : Registers) : v.read k = v.ofBytes k.bytes := by
  cases v with
  | get s r => rfl
  | pair s rr => exact Word.toNat_ofBytes _ _
  | index x =>
    have hjoin : k.index x = Word.ofBytes (k.indexHigh x) (k.indexLow x) :=
      (Word.ofBytes_hi_lo (k.index x)).symm
    exact (congrArg UInt16.toNat hjoin).trans (Word.toNat_ofBytes _ _)
  | high x => rfl
  | low x => rfl
  | flag bit =>
    have hbit : k.main.f.get bit = (k.bytes (.bank .main .f)).bit bit.position :=
      (Flags.bit_toByte k.main.f bit).symm
    rw [read, hbit, Byte.bit, Nat.toNat_testBit]
    rfl

/-- SP, PC, I, R and the interrupt flip-flops are not among the bytes, and stay. -/
theorem RegWrite.others_apply (w : RegWrite) (k : Registers) : (w.apply k).others = k.others := by
  cases w with
  | set s r v => cases s <;> rfl
  | setPair s rr v => cases s <;> rfl
  | setIndex x v => cases x <;> rfl
  | setHigh x v => cases x <;> rfl
  | setLow x v => cases x <;> rfl
  | _ => rfl

/-! ## By places and masks -/

/-- The mask of a flag in F. -/
def Flag.mask : Flag → Byte
  | c => 0x01
  | n => 0x02
  | pv => 0x04
  | x => 0x08
  | h => 0x10
  | y => 0x20
  | z => 0x40
  | s => 0x80

theorem Byte.and_mask (b : Byte) (flag : Flag) : (b &&& flag.mask != 0) = b.bit flag.position := by
  revert b
  rw [Byte.forall_iff]
  cases flag <;> decide +kernel

theorem Byte.withBit_eq_mask (b : Byte) (flag : Flag) (on : Bool) :
    b.withBit flag.position on = if on then b ||| flag.mask else b &&& ~~~flag.mask := by
  cases flag <;> rfl

/-- The registers after a write, where each bank is an array. -/
def RegWrite.applyByPlace? (w : RegWrite) (k : Registers) : Option Registers :=
  match w with
  | set s r v => do return k.setBank s (← (k.bank s).set? r v)
  | setPair s rr v => do return k.setBank s (← (k.bank s).setPair? rr v)
  | setIndex x v => some (k.setIndex x v)
  | setHigh x v => do return k.setIndex x (← (k.index x).setHalf? 1 v)
  | setLow x v => do return k.setIndex x (← (k.index x).setHalf? 0 v)
  | setFlag flag on => do
    let f ← k.main.get? .f
    let f := if on then f ||| flag.mask else f &&& ~~~flag.mask
    return k.setBank .main (← k.main.set? .f f)
  | exchangeAf => k.exchange? [Checked.slot .a, Checked.slot .f]
  | exchangeMain => k.exchange? (List.range 6)

/-- What the registers show, where each bank is an array. -/
def RegView.readByPlace? (v : RegView) (k : Registers) : Option Nat :=
  match v with
  | get s r => do return (← (k.bank s).get? r).toNat
  | pair s rr => do return (← (k.bank s).pair? rr).toNat
  | index x => some (k.index x).toNat
  | high x => some (k.indexHigh x).toNat
  | low x => some (k.indexLow x).toNat
  | flag bit => do return ((← k.main.get? .f) &&& bit.mask != 0).toNat

/-- All places that a write names are there, and the bytes in them are those it names. -/
theorem RegWrite.applyByPlace?_eq (w : RegWrite) (k : Registers) :
    w.applyByPlace? k = some (w.apply k) := by
  cases w with
  | set s r v => simp [applyByPlace?, apply, Bank.set?_eq]
  | setPair s rr v => simp [applyByPlace?, apply, Bank.setPair?_eq]
  | setIndex x v => rfl
  | setHigh x v => rfl
  | setLow x v => rfl
  | setFlag flag on =>
    -- F is read from its place and goes back with one bit replaced
    rw [applyByPlace?, Bank.get?_eq, Option.bind_eq_bind, Option.bind_some,
      ← Byte.withBit_eq_mask]
    simp only [Bank.get, ← Flags.toByte_set, Bank.set?_eq]
    simp [apply, Registers.setBank, Bank.set]
  | exchangeAf => exact k.exchange?_af
  | exchangeMain => exact k.exchange?_main

theorem RegView.readByPlace?_eq (v : RegView) (k : Registers) :
    v.readByPlace? k = some (v.read k) := by
  cases v with
  | get s r => simp [readByPlace?, read, Bank.get?_eq]
  | pair s rr => simp [readByPlace?, read, Bank.pair?_eq]
  | flag bit =>
    rw [readByPlace?, Bank.get?_eq, Option.bind_eq_bind, Option.bind_some, Byte.and_mask]
    exact congrArg (fun b : Bool => some b.toNat) (Flags.bit_toByte k.main.f bit)
  | _ => rfl

/-! ## Sequences of writes -/

namespace Registers

/-- The registers after a sequence of writes. -/
def written (k : Registers) (ws : List RegWrite) : Registers :=
  ws.foldl (fun k w => w.apply k) k

theorem bytes_written (k : Registers) (ws : List RegWrite) :
    (k.written ws).bytes = ws.foldl (fun f w => w.onBytes f) k.bytes := by
  induction ws generalizing k with
  | nil => rfl
  | cons w ws ih =>
    rw [List.foldl_cons, ← RegWrite.bytes_apply]
    exact ih (w.apply k)

theorem others_written (k : Registers) (ws : List RegWrite) :
    (k.written ws).others = k.others := by
  induction ws generalizing k with
  | nil => rfl
  | cons w ws ih => exact (ih (w.apply k)).trans (w.others_apply k)

theorem foldlM_applyByPlace? (k : Registers) (ws : List RegWrite) :
    ws.foldlM (fun k w => w.applyByPlace? k) k = some (k.written ws) := by
  induction ws generalizing k with
  | nil => rfl
  | cons w ws ih =>
    rw [List.foldlM_cons, RegWrite.applyByPlace?_eq, Option.bind_eq_bind, Option.bind_some]
    exact ih (w.apply k)

end Registers

/-- The register file is twenty independent bytes.  Whatever they are at the start, every
    reading after any sequence of writes is what the bytes show when each write replaces only
    those that it names; the other registers stay.  The places of the registers in two arrays
    and the masks of the flags lead to the same. -/
theorem registers_refine_bytes :
    (∀ f : RegByte → Byte, ∃ k : Registers, k.bytes = f) ∧
    ∀ (k : Registers) (ws : List RegWrite),
      (∀ v : RegView, v.read (k.written ws) =
        v.ofBytes (ws.foldl (fun f w => w.onBytes f) k.bytes)) ∧
      (k.written ws).others = k.others ∧
      ws.foldlM (fun k w => w.applyByPlace? k) k = some (k.written ws) ∧
      ∀ v : RegView, v.readByPlace? (k.written ws) = some (v.read (k.written ws)) := by
  refine ⟨Registers.exists_bytes, fun k ws => ⟨fun v => ?_, ?_, ?_, fun v => ?_⟩⟩
  · rw [RegView.read_eq_ofBytes, Registers.bytes_written]
  · exact k.others_written ws
  · exact k.foldlM_applyByPlace? ws
  · exact v.readByPlace?_eq _

end Z80
