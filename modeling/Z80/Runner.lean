/-
  Z80.Runner

  Running a machine to its end: until it halts or a number of steps is reached.
  A halted machine may be kept idling until the limit.
-/

import Z80.Scheduler

namespace Z80

/-- How a run ended. -/
structure Outcome where
  machine : Machine
  reason : StopReason
  steps : UInt64
  /-- The T-states of all steps. -/
  cycles : UInt64
  /-- What was reported, in order. -/
  log : List Notice

namespace Runner

/-- The condition that a number of steps has been issued; its state counts them. -/
def limitReached (limit : Option UInt64) (issued : UInt64) (_ : Machine) : Bool × UInt64 :=
  (match limit with
    | some n => n ≤ issued
    | none => false, issued + 1)

/-- The scheduler at the end of a run, stopped and with its reason reported. -/
def finish (s : Scheduler) (reason : StopReason) : Outcome :=
  let s := s.exit
  { machine := s.machine
    reason
    steps := s.steps
    cycles := s.total
    log := (.stopped reason s.steps s.total :: s.log).reverse }

/-- The number of steps that a run ended for a reason goes on idling to: the limit,
    if the processor has halted and the run is not to stop there. -/
def idleLimit (limit : Option UInt64) (stopOnHalt : Bool) (reason : StopReason) : UInt64 :=
  if reason = .halted ∧ stopOnHalt = false then limit.getD 0 else 0

/-- The outcome of a run that has come to an end for a reason and idled to `s`.  A
    processor that halts where it should not end the run ends it all the same if
    there is no limit, because nothing can wake it. -/
def conclude (limit : Option UInt64) (stopOnHalt : Bool) (reason : StopReason)
    (s : Scheduler) : Outcome :=
  if reason = .halted ∧ stopOnHalt = false then
    match limit with
    | some _ => finish s .predicate
    | none => finish { s with log := .unlimitedHalt :: s.log } reason
  else finish s reason

/-- Run a machine until it halts or `limit` steps have been made.  Without
    `stopOnHalt` a machine that halts idles until the limit.  `none` if the run
    makes `fuel` polls, before it halts or after, without coming to an end. -/
def run (c : WallClock) (limit : Option UInt64) (stopOnHalt : Bool) (fuel : Nat)
    (m : Machine) : Option Outcome :=
  let r := (Scheduler.ofMachine m).start.runUntil c (limitReached limit) fuel 0
  match r.reason with
  | none => none
  | some reason =>
    (r.scheduler.idleUntil (idleLimit limit stopOnHalt reason) fuel r.clock).map
      (conclude limit stopOnHalt reason)

/-- More polls than any run counts its steps to. -/
def maxPolls : Nat := 0x10000000000000000

end Runner

end Z80
