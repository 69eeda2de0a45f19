/-
  Z80.Scheduler

  Issuing instructions at the pace of a clock.  A scheduler executes one step
  when it is polled, unless the time of the previous step has not passed yet.

  Instants are nanoseconds from a common origin.  What the wall clock shows
  enters as data: a single poll is told when it is made and when its step has
  finished, and a run takes a `WallClock`, which says how much time passes
  before each reading.  Time only goes forward and no sleep ends before its
  deadline, so each poll after a sleep executes a step (`ready_await`).

  Steps and T-states are counted in 64 bits and wrap around.
-/

import Z80.Notice

namespace Z80

/-- A machine with the pace and the progress of its execution. -/
structure Scheduler where
  machine : Machine
  pacer : Pacer
  running : Bool
  /-- When the next step may be executed, if that is fixed already. -/
  due : Option Nat
  /-- The steps executed. -/
  steps : UInt64
  /-- Their T-states together. -/
  total : UInt64
  /-- What was reported on the way, the latest first. -/
  log : List Notice

namespace Scheduler

/-- A scheduler that has not started, at the pace of the machine's clock. -/
def ofMachine (m : Machine) : Scheduler where
  machine := m
  pacer := .ofClock m.clock
  running := false
  due := none
  steps := 0
  total := 0
  log := []

/-- Start executing; the first step may be executed at once. -/
def start (s : Scheduler) : Scheduler :=
  { s with running := true, due := none, log := .start :: s.log }

/-- Stop executing. -/
def exit (s : Scheduler) : Scheduler :=
  { s with running := false, due := none, log := .exit s.steps s.total :: s.log }

/-- Whether a poll made at `now` executes a step. -/
def ready (s : Scheduler) (now : Nat) : Bool :=
  s.running && match s.due with
    | none => true
    | some due => due ≤ now

/-- One step executed by a poll made at `now`, finished at `finished`. -/
def issue (s : Scheduler) (now finished : Nat) : Scheduler :=
  let notice := s.machine.notice?
  let m := s.machine.step
  { s with
    machine := m
    due := some (finished + s.pacer.delay m.cycles (finished - now))
    steps := s.steps + 1
    total := s.total + m.cycles.toUInt64
    log := notice.toList ++ s.log }

/-- A poll made at `now`; a step that it executes is finished at `finished`.  The
    T-states of the step, if there is one. -/
def poll (s : Scheduler) (now finished : Nat) : Scheduler × Option Nat :=
  if s.ready now then
    let next := s.issue now finished
    (next, some next.machine.cycles)
  else (s, none)

theorem poll_of_not_ready {s : Scheduler} {now : Nat} (h : s.ready now = false) (finished : Nat) :
    s.poll now finished = (s, none) := by
  simp [poll, h]

theorem poll_of_ready {s : Scheduler} {now : Nat} (h : s.ready now = true) (finished : Nat) :
    s.poll now finished = (s.issue now finished, some s.machine.step.cycles) := by
  simp [poll, h, issue]

end Scheduler

/-! ## The wall clock -/

/-- The wall clock at some point of a run, with what it will show.  What a sleep or
    a pause takes longer than it has to is part of the lag of the reading after it. -/
structure WallClock where
  /-- The present instant. -/
  instant : Nat
  /-- The readings made so far. -/
  readings : Nat
  /-- What passes before each reading, by its number. -/
  lag : Nat → Nat
  /-- How long a pause lasts. -/
  pause : Nat

namespace WallClock

/-- The clock when it has been read; it showed the `instant` of the result. -/
def read (c : WallClock) : WallClock :=
  { c with instant := c.instant + c.lag c.readings, readings := c.readings + 1 }

/-- The clock after a sleep until an instant; there is none if that has passed. -/
def sleepUntil (c : WallClock) (due : Nat) : WallClock :=
  { c with instant := max c.instant due }

/-- The clock after a pause. -/
def rest (c : WallClock) : WallClock :=
  { c with instant := c.instant + c.pause }

/-- The clock after looking whether there is something to wait for and waiting. -/
def await (c : WallClock) : Option Nat → WallClock
  | none => c
  | some due => c.read.sleepUntil due

/-- The clock on which nothing takes longer than it has to, and a pause lasts
    longer than any wait. -/
def ideal : WallClock where
  instant := 0
  readings := 0
  lag _ := 0
  pause := 0x10000000000000000

@[simp] theorem pause_read (c : WallClock) : c.read.pause = c.pause := rfl

@[simp] theorem pause_await (c : WallClock) (due : Option Nat) :
    (c.await due).pause = c.pause := by
  cases due <;> rfl

theorem instant_le_read (c : WallClock) : c.instant ≤ c.read.instant :=
  Nat.le_add_right ..

theorem le_instant_await (c : WallClock) (due : Nat) : due ≤ (c.await (some due)).instant :=
  Nat.le_max_right ..

end WallClock

/-! ## Runs -/

/-- How far a run has come: the scheduler, the wall clock, the state of the condition
    to stop at, and why it ended, unless it was cut off. -/
structure Run (σ : Type) where
  scheduler : Scheduler
  clock : WallClock
  state : σ
  reason : Option StopReason

namespace Scheduler

/-- Poll at the instant that the clock shows.  If a step is executed, the clock is
    read again when it is finished. -/
def pollOn (c : WallClock) (s : Scheduler) : WallClock × Scheduler × Option Nat :=
  let polled := c.read
  let finished := polled.read
  match s.poll polled.instant finished.instant with
  | (s, some t) => (finished, s, some t)
  | (s, none) => (polled, s, none)

theorem pollOn_of_not_ready {c : WallClock} {s : Scheduler}
    (h : s.ready c.read.instant = false) : s.pollOn c = (c.read, s, none) := by
  simp [pollOn, poll_of_not_ready h]

theorem pollOn_of_ready {c : WallClock} {s : Scheduler} (h : s.ready c.read.instant = true) :
    s.pollOn c = (c.read.read, s.issue c.read.instant c.read.read.instant,
      some s.machine.step.cycles) := by
  simp [pollOn, poll_of_ready h]

/-- After waiting for the next step to be due, it is. -/
theorem ready_await (c : WallClock) {s : Scheduler} (hs : s.running = true) :
    s.ready (c.await s.due).read.instant = true := by
  simp only [ready, hs, Bool.true_and]
  cases s.due with
  | none => rfl
  | some due =>
    have hslept : due ≤ (c.await (some due)).read.instant :=
      Nat.le_trans (c.le_instant_await due) (WallClock.instant_le_read _)
    simpa using hslept

/-- Execute steps until the scheduler is not running, the machine is halted or
    the condition `stop`, which may keep a state of its own, holds of the
    machine.  Before each poll the run sleeps until the next step is due.  At most
    `fuel` polls are made. -/
def runUntil {σ : Type} :
    WallClock → (σ → Machine → Bool × σ) → Nat → σ → Scheduler → Run σ
  | c, _, 0, st, s => ⟨s, c, st, none⟩
  | c, stop, fuel + 1, st, s =>
    if !s.running then ⟨s, c, st, some .exited⟩
    else if s.machine.halted then ⟨s, c, st, some .halted⟩
    else
      match stop st s.machine with
      | (true, st) => ⟨s, c, st, some .predicate⟩
      | (false, st) =>
        let (c, s, _) := s.pollOn (c.await s.due)
        runUntil c stop fuel st s

/-- Poll without sleeping until `n` steps have been executed, whatever the state of
    the machine, and pause after each poll that executes none.  `none` if that takes
    more than `fuel` polls. -/
def idleUntil (n : UInt64) : Nat → WallClock → Scheduler → Option Scheduler
  | 0, _, s => if n ≤ s.steps then some s else none
  | fuel + 1, c, s =>
    if n ≤ s.steps then some s
    else
      match s.pollOn c with
      | (c, s, some _) => idleUntil n fuel c s
      | (c, s, none) => idleUntil n fuel c.rest s

end Scheduler

end Z80
