/-
  Z80.Case.Sampling

  Drawing the random part of a test case from a source of 32-bit numbers.
-/

import Z80.Case.Generate

namespace Z80.Draw

variable {σ : Type}

/-- A random byte: the low bits of the next number. -/
def byte (next : σ → UInt32 × σ) : StateT σ Option Byte :=
  fun st => let (n, st) := next st; some (n.toUInt8, st)

/-- A random word: the low bits of the next number. -/
def word (next : σ → UInt32 × σ) : StateT σ Option Word :=
  fun st => let (n, st) := next st; some (n.toUInt16, st)

/-- A random number up to `bound`, every one equally likely: the high half of a
    64-bit product, drawn again while the low half is in the incomplete zone.
    `none` if all of `fuel` numbers are rejected. -/
def upTo (next : σ → UInt32 × σ) (bound : Nat) : Nat → StateT σ Option Nat
  | 0, _ => none
  | fuel + 1, st =>
    let range := bound + 1
    let rejected := (0x100000000 - range) % range
    let (n, st) := next st
    let product := n.toNat * range
    if product % 0x100000000 ≤ 0x100000000 - 1 - rejected then some (product / 0x100000000, st)
    else upTo next bound fuel st

/-- More numbers than a draw with less than half of them rejected ever needs. -/
def patience : Nat := 0x100000

/-- Draw the random part of a case. -/
def random (next : σ → UInt32 × σ) : StateT σ Option Draw := do
  let pc ← upTo next 0xFFFC patience
  let sp ← word next
  let a ← byte next
  let b ← byte next
  let c ← byte next
  let d ← byte next
  let e ← byte next
  let f ← byte next
  let h ← byte next
  let l ← byte next
  let i ← byte next
  let r ← byte next
  let ix ← word next
  let iy ← word next
  let afAlt ← word next
  let bcAlt ← word next
  let deAlt ← word next
  let hlAlt ← word next
  let im ← upTo next 2 patience
  let iff1 ← upTo next 1 patience
  let iff2 ← upTo next 1 patience
  let operand₁ ← byte next
  let operand₂ ← byte next
  let operand₃ ← byte next
  let atBc ← byte next
  let atDe ← byte next
  let atHl ← byte next
  let atSp ← byte next
  let aboveSp ← byte next
  let atOperand ← byte next
  let aboveOperand ← byte next
  let portA ← byte next
  let portBc ← byte next
  return {
    registers := {
      pc := pc.toUInt16, sp, a, b, c, d, e, f, h, l, i, r, ix, iy, afAlt, bcAlt, deAlt, hlAlt
      im := im.toUInt8, iff1 := iff1.toUInt8, iff2 := iff2.toUInt8 }
    operand₁, operand₂, operand₃, atBc, atDe, atHl, atSp, aboveSp, atOperand, aboveOperand
    portA, portBc }

end Z80.Draw
