/-
  Z80.Clock

  The clock of the processor: how long a number of T-states lasts, and how long
  to wait before the next instruction.

  Times are whole nanoseconds.  A speed is a floating-point number of MHz; one
  that is not positive or not finite takes no time at all.  `Pacer` keeps the
  speed behind a function from T-states to nanoseconds, so that statements about
  pacing need nothing of floating-point numbers.
-/

namespace Z80

/-- The speed of the processor unless another is asked for. -/
def Clock.defaultMhz : Float := 4.0

/-- The speed of a clock and whether execution keeps to it. -/
structure Clock where
  mhz : Float := Clock.defaultMhz
  realtime : Bool := true
  deriving Inhabited

namespace Clock

/-- The microseconds that one T-state lasts. -/
def cycleMicros (k : Clock) : Float :=
  1.0 / k.mhz

/-- The nanoseconds that `t` T-states last, rounded to the nearest with halves
    away from zero and at most 2^64 - 1. -/
def durationOf (k : Clock) (t : UInt64) : Nat :=
  let nanos := t.toFloat * k.cycleMicros * 1000.0
  if nanos.isFinite && nanos > 0.0 then nanos.round.toUInt64.toNat else 0

end Clock

/-- How long to wait between instructions: the length of a number of T-states in
    nanoseconds, and whether to wait at all. -/
structure Pacer where
  realtime : Bool
  durationOf : Nat → Nat

namespace Pacer

/-- The pacer of a clock. -/
def ofClock (k : Clock) : Pacer where
  realtime := k.realtime
  durationOf t := k.durationOf t.toUInt64

/-- The wait after an instruction of `t` T-states of which `elapsed` nanoseconds
    have passed already. -/
def delay (p : Pacer) (t elapsed : Nat) : Nat :=
  if p.realtime then p.durationOf t - elapsed else 0

theorem delay_of_not_realtime {p : Pacer} (h : p.realtime = false) (t elapsed : Nat) :
    p.delay t elapsed = 0 := by
  simp [delay, h]

theorem durationOf_le_elapsed_add_delay {p : Pacer} (h : p.realtime = true) (t elapsed : Nat) :
    p.durationOf t ≤ elapsed + p.delay t elapsed := by
  simp only [delay, h, if_true]
  omega

end Pacer

end Z80
