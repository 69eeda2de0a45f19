/-
  Z80.Proofs.Runs

  How runs end.

  A run until a condition stops after a number of steps that the machine and the
  condition decide alone (`Stops`): whatever the wall clock shows, each round sleeps
  long enough for its poll to execute a step (`stops_of_runUntil`).  A run of a program
  stops when the processor has halted for the first time or the limit is reached, and
  may idle from the one to the other; `Ends` says after how many steps and for which
  reason (`run_ends`).

  Steps are counted in 64 bits.  A limit is reached before they wrap around
  (`toNat_add_one_of_not_le`), so only a run without one can go beyond.
-/

import Mathlib.Order.Bounds.Basic
import Z80.Proofs.SaveStates
import Z80.Proofs.Scheduling
import Z80.Runner

namespace Z80

/-! ## Halting -/

namespace Machine

variable {m : Machine} {h : Nat}

/-- The machine is halted after `h` steps and was not before. -/
def HaltsAt (m : Machine) (h : Nat) : Prop :=
  IsLeast {n | (steps n m).halted = true} h

theorem haltsAt_zero (hm : m.halted = true) : m.HaltsAt 0 :=
  ⟨hm, fun _ _ => Nat.zero_le _⟩

theorem HaltsAt.pos (hm : m.halted = false) (hh : m.HaltsAt h) : 0 < h := by
  refine Nat.pos_of_ne_zero ?_
  rintro rfl
  exact Bool.false_ne_true (hm.symm.trans hh.1)

theorem haltsAt_succ (hm : m.halted = false) : m.HaltsAt (h + 1) ↔ m.step.HaltsAt h := by
  constructor
  · intro hh
    refine ⟨hh.1, fun n hn => ?_⟩
    have hsteps : (steps (n + 1) m).halted = true := hn
    exact Nat.le_of_succ_le_succ (hh.2 hsteps)
  · intro hh
    refine ⟨hh.1, fun n hn => ?_⟩
    cases n with
    | zero => exact absurd (hm.symm.trans hn) Bool.false_ne_true
    | succ n => exact Nat.succ_le_succ (hh.2 hn)

theorem haltsAt_withClock (m : Machine) (c : Clock) (h : Nat) :
    ({ m with clock := c }).HaltsAt h ↔ m.HaltsAt h := by
  simp only [HaltsAt, steps_withClock]

end Machine

/-- A counter that has not reached a limit does not wrap around at the next step. -/
theorem toNat_add_one_of_not_le {limit count : UInt64} (h : ¬limit ≤ count) :
    count.toNat < limit.toNat ∧ (count + 1).toNat = count.toNat + 1 := by
  have hlt : count.toNat < limit.toNat :=
    Nat.lt_of_not_le fun hle => h (UInt64.le_iff_toNat_le.mpr hle)
  have hbound := limit.toNat_lt
  refine ⟨hlt, ?_⟩
  rw [UInt64.toNat_add]
  exact Nat.mod_eq_of_lt (Nat.lt_of_le_of_lt hlt hbound)

/-! ## Runs until a condition -/

/-- From a machine, and with a condition to stop at in some state, a run makes `k` steps
    and stops for a reason.  The condition is asked before each step, but not of a halted
    machine; the last state is the one that it is left in. -/
inductive Stops {σ : Type} (stop : σ → Machine → Bool × σ) :
    Machine → σ → Nat → StopReason → σ → Prop where
  | halted {m : Machine} {st : σ} (hm : m.halted = true) : Stops stop m st 0 .halted st
  | predicate {m : Machine} {st st' : σ} (hm : m.halted = false)
      (hstop : stop st m = (true, st')) : Stops stop m st 0 .predicate st'
  | step {m : Machine} {st st' st'' : σ} {k : Nat} {reason : StopReason}
      (hm : m.halted = false) (hstop : stop st m = (false, st'))
      (rest : Stops stop m.step st' k reason st'') : Stops stop m st (k + 1) reason st''

namespace Scheduler

variable {σ : Type} {stop : σ → Machine → Bool × σ}

/-! ### One round -/

variable {c : WallClock} {fuel : Nat} {st st' : σ} {s : Scheduler}

theorem runUntil_of_halted (hs : s.running = true) (hm : s.machine.halted = true) :
    s.runUntil c stop (fuel + 1) st = ⟨s, c, st, some .halted⟩ := by
  simp [runUntil, hs, hm]

theorem runUntil_of_predicate (hs : s.running = true) (hm : s.machine.halted = false)
    (hstop : stop st s.machine = (true, st')) :
    s.runUntil c stop (fuel + 1) st = ⟨s, c, st', some .predicate⟩ := by
  simp [runUntil, hs, hm, hstop]

/-- A round that does not end the run executes a step, whatever the clock shows. -/
theorem runUntil_of_step (c : WallClock) (hs : s.running = true) (hm : s.machine.halted = false)
    (hstop : stop st s.machine = (false, st')) (fuel : Nat) :
    let polled := (c.await s.due).read
    s.runUntil c stop (fuel + 1) st =
      (s.issue polled.instant polled.read.instant).runUntil polled.read stop fuel st' := by
  simp [runUntil, hs, hm, hstop, pollOn_of_ready (ready_await c hs)]

/-! ### The whole run -/

/-- A run that comes to an end has made the steps after which it is to stop. -/
theorem stops_of_runUntil {r : Run σ} {reason : StopReason} (hs : s.running = true)
    (hr : s.runUntil c stop fuel st = r) (hreason : r.reason = some reason) :
    ∃ k, Stops stop s.machine st k reason r.state ∧ s.Advance k r.scheduler ∧
      r.scheduler.running = true := by
  induction fuel generalizing c st s with
  | zero =>
    rw [← hr] at hreason
    cases hreason
  | succ fuel ih =>
    cases hm : s.machine.halted with
    | true =>
      rw [runUntil_of_halted hs hm] at hr
      subst hr
      cases hreason
      exact ⟨0, .halted hm, .refl s, hs⟩
    | false =>
      obtain ⟨done, st', hstop⟩ : ∃ done st', stop st s.machine = (done, st') := ⟨_, _, rfl⟩
      cases done with
      | true =>
        rw [runUntil_of_predicate hs hm hstop] at hr
        subst hr
        cases hreason
        exact ⟨0, .predicate hm hstop, .refl s, hs⟩
      | false =>
        rw [runUntil_of_step c hs hm hstop] at hr
        obtain ⟨k, hstops, hadvance, hrunning⟩ := ih (s := s.issue _ _) hs hr
        refine ⟨k + 1, .step hm hstop hstops, ?_, hrunning⟩
        rw [Nat.add_comm]
        exact (advance_issue s _ _).trans hadvance

/-- A run that is to stop comes to its end, with any number of polls above that of its
    steps the same. -/
theorem exists_runUntil {m : Machine} {k : Nat} {reason : StopReason}
    (h : Stops stop m st k reason st') (c : WallClock) (hs : s.running = true)
    (hm : s.machine = m) :
    ∃ r, r.reason = some reason ∧ r.clock.pause = c.pause ∧
      ∀ fuel, k < fuel → s.runUntil c stop fuel st = r := by
  induction h generalizing c s with
  | @halted m st hhalted =>
    refine ⟨⟨s, c, st, some .halted⟩, rfl, rfl, fun fuel hk => ?_⟩
    obtain ⟨fuel, rfl⟩ := Nat.exists_eq_add_one_of_ne_zero (Nat.ne_zero_of_lt hk)
    exact runUntil_of_halted hs (hm ▸ hhalted)
  | @predicate m st st' hrunning hstop =>
    refine ⟨⟨s, c, st', some .predicate⟩, rfl, rfl, fun fuel hk => ?_⟩
    obtain ⟨fuel, rfl⟩ := Nat.exists_eq_add_one_of_ne_zero (Nat.ne_zero_of_lt hk)
    exact runUntil_of_predicate hs (hm ▸ hrunning) (hm ▸ hstop)
  | @step m st st' st'' k reason hrunning hstop rest ih =>
    have hround := runUntil_of_step c hs (hm ▸ hrunning) (hm ▸ hstop)
    obtain ⟨r, hreason, hpause, hr⟩ := ih (s := s.issue _ _) (c.await s.due).read.read hs
      (congrArg Machine.step hm)
    refine ⟨r, hreason, by simpa using hpause, fun fuel hk => ?_⟩
    obtain ⟨fuel, rfl⟩ := Nat.exists_eq_add_one_of_ne_zero (Nat.ne_zero_of_lt hk)
    exact (hround fuel).trans (hr fuel (Nat.lt_of_succ_lt_succ hk))

/-! ## Idling -/

variable {n : UInt64}

theorem idleUntil_of_le (h : n ≤ s.steps) (fuel : Nat) (c : WallClock) :
    s.idleUntil n fuel c = some s := by
  cases fuel <;> rw [idleUntil, if_pos h]

theorem idleUntil_of_ready (h : ¬n ≤ s.steps) (hready : s.ready c.read.instant = true)
    (fuel : Nat) : s.idleUntil n (fuel + 1) c =
      (s.issue c.read.instant c.read.read.instant).idleUntil n fuel c.read.read := by
  rw [idleUntil, if_neg h, pollOn_of_ready hready]

theorem idleUntil_of_not_ready (h : ¬n ≤ s.steps)
    (hready : s.ready c.read.instant = false) (fuel : Nat) :
    s.idleUntil n (fuel + 1) c = s.idleUntil n fuel c.read.rest := by
  rw [idleUntil, if_neg h, pollOn_of_not_ready hready]

theorem le_steps_of_idleUntil_zero {s' : Scheduler} (h : s.idleUntil n 0 c = some s') :
    n ≤ s.steps := by
  rw [idleUntil] at h
  split at h
  · assumption
  · cases h

theorem advance_idleUntil_of_le {s' : Scheduler} (hn : n ≤ s.steps)
    (h : s.idleUntil n fuel c = some s') : s.Advance (n.toNat - s.steps.toNat) s' := by
  rw [idleUntil_of_le hn] at h
  cases h
  rw [Nat.sub_eq_zero_of_le (UInt64.le_iff_toNat_le.mp hn)]
  exact .refl _

/-- Idling executes the steps that are missing, and the polls that execute none leave no
    trace. -/
theorem advance_idleUntil {s' : Scheduler} (h : s.idleUntil n fuel c = some s') :
    s.Advance (n.toNat - s.steps.toNat) s' := by
  induction fuel generalizing c s with
  | zero => exact advance_idleUntil_of_le (le_steps_of_idleUntil_zero h) h
  | succ fuel ih =>
    by_cases hn : n ≤ s.steps
    · exact advance_idleUntil_of_le hn h
    · cases hready : s.ready c.read.instant with
      | true =>
        rw [idleUntil_of_ready hn hready] at h
        obtain ⟨hlt, hnext⟩ := toNat_add_one_of_not_le hn
        have hrest := ih h
        have hcounted : (s.issue c.read.instant c.read.read.instant).steps.toNat =
            s.steps.toNat + 1 := hnext
        rw [hcounted] at hrest
        have hmissing : n.toNat - s.steps.toNat = 1 + (n.toNat - (s.steps.toNat + 1)) := by omega
        rw [hmissing]
        exact (advance_issue s c.read.instant c.read.read.instant).trans hrest
      | false =>
        rw [idleUntil_of_not_ready hn hready] at h
        exact ih h

/-- A running scheduler that executes nothing is waiting for an instant to come. -/
theorem lt_due_of_not_ready {now : Nat} (hs : s.running = true) (hready : s.ready now = false) :
    now < s.due.getD 0 := by
  rw [ready, hs, Bool.true_and] at hready
  cases hdue : s.due with
  | none => rw [hdue] at hready; cases hready
  | some d => simpa [hdue] using hready

/-- Idling comes to its end, with any sufficient number of polls the same, if pauses take
    time: while no step is due the clock comes nearer to the next one, and each step
    executed is one less to go. -/
theorem exists_idleUntil (n : UInt64) (c : WallClock) (s : Scheduler) (hpause : 0 < c.pause)
    (hs : s.running = true) :
    ∃ enough s', ∀ fuel, enough ≤ fuel → s.idleUntil n fuel c = some s' := by
  by_cases hn : n ≤ s.steps
  · exact ⟨0, s, fun fuel _ => idleUntil_of_le hn fuel c⟩
  · cases hready : s.ready c.read.instant with
    | true =>
      obtain ⟨enough, s', h⟩ := exists_idleUntil n c.read.read
        (s.issue c.read.instant c.read.read.instant) hpause hs
      refine ⟨enough + 1, s', fun fuel hfuel => ?_⟩
      obtain ⟨fuel, rfl⟩ := Nat.exists_eq_add_one_of_ne_zero (Nat.ne_zero_of_lt hfuel)
      rw [idleUntil_of_ready hn hready]
      exact h fuel (Nat.le_of_succ_le_succ hfuel)
    | false =>
      obtain ⟨enough, s', h⟩ := exists_idleUntil n c.read.rest s hpause hs
      refine ⟨enough + 1, s', fun fuel hfuel => ?_⟩
      obtain ⟨fuel, rfl⟩ := Nat.exists_eq_add_one_of_ne_zero (Nat.ne_zero_of_lt hfuel)
      rw [idleUntil_of_not_ready hn hready]
      exact h fuel (Nat.le_of_succ_le_succ hfuel)
termination_by (n.toNat - s.steps.toNat, s.due.getD 0 - c.instant)
decreasing_by
  · apply Prod.Lex.right
    have hread := c.instant_le_read
    have hdue := lt_due_of_not_ready hs hready
    show s.due.getD 0 - (c.read.instant + c.pause) < s.due.getD 0 - c.instant
    omega
  · apply Prod.Lex.left
    obtain ⟨hlt, hnext⟩ := toNat_add_one_of_not_le hn
    show n.toNat - (s.steps + 1).toNat < n.toNat - s.steps.toNat
    omega

end Scheduler

namespace Runner

/-! ## Where a run is to end -/

/-- After how many steps a run of a machine is to end and for which reason, with a limit
    or without, and stopping at a halt or not. -/
inductive Ends (m : Machine) : Option Nat → Bool → StopReason → Nat → Prop where
  /-- The processor does not halt within the limit. -/
  | limit {n : Nat} {stopOnHalt : Bool} (h : ∀ k, m.HaltsAt k → n < k) :
    Ends m (some n) stopOnHalt .predicate n
  /-- The processor halts within the limit, and the run with it. -/
  | halted {n k : Nat} (hk : m.HaltsAt k) (hn : k ≤ n) : Ends m (some n) true .halted k
  /-- The processor halts within the limit and idles until it is reached. -/
  | idled {n k : Nat} (hk : m.HaltsAt k) (hn : k ≤ n) : Ends m (some n) false .predicate n
  /-- Without a limit nothing but a halt ends the run. -/
  | unlimited {k : Nat} {stopOnHalt : Bool} (hk : m.HaltsAt k) :
    Ends m none stopOnHalt .halted k

variable {m : Machine} {most : Option Nat} {limit : Option UInt64} {stopOnHalt : Bool}
  {reason reason' : StopReason} {k k' fuel : Nat} {issued issued' : UInt64} {c : WallClock}
  {out : Outcome}

theorem Ends.unique (h : Ends m most stopOnHalt reason k)
    (h' : Ends m most stopOnHalt reason' k') : reason = reason' ∧ k = k' := by
  cases h with
  | limit hlimit =>
    cases h' with
    | limit => exact ⟨rfl, rfl⟩
    | halted hk hn => exact absurd (hlimit _ hk) (Nat.not_lt.mpr hn)
    | idled => exact ⟨rfl, rfl⟩
  | halted hk hn =>
    cases h' with
    | limit hlimit => exact absurd (hlimit _ hk) (Nat.not_lt.mpr hn)
    | halted hk' => exact ⟨rfl, IsLeast.unique hk hk'⟩
  | idled =>
    cases h' with
    | limit => exact ⟨rfl, rfl⟩
    | idled => exact ⟨rfl, rfl⟩
  | unlimited hk =>
    cases h' with
    | unlimited hk' => exact ⟨rfl, IsLeast.unique hk hk'⟩

theorem Ends.of_withClock {cfg : Clock}
    (h : Ends { m with clock := cfg } most stopOnHalt reason k) :
    Ends m most stopOnHalt reason k := by
  cases h with
  | limit hlimit => exact .limit fun k hk => hlimit k ((m.haltsAt_withClock cfg k).mpr hk)
  | halted hk hn => exact .halted ((m.haltsAt_withClock cfg k).mp hk) hn
  | idled hk hn => exact .idled ((m.haltsAt_withClock cfg _).mp hk) hn
  | unlimited hk => exact .unlimited ((m.haltsAt_withClock cfg k).mp hk)

/-- A run with a limit ends at it at the latest. -/
theorem Ends.le_limit {n : Nat} (h : Ends m (some n) stopOnHalt reason k) : k ≤ n := by
  cases h with
  | limit => exact Nat.le_refl k
  | halted _ hn => exact hn
  | idled => exact Nat.le_refl k

/-! ## The limit -/

theorem limitReached_some (n : UInt64) :
    limitReached (some n) issued m = (decide (n ≤ issued), issued + 1) := rfl

/-- With a limit that has not been passed, a run stops where the processor halts within
    it or else at it.  The state of the condition is the number of steps made, because the
    condition is asked once before each. -/
theorem halts_or_limit_of_stops (h : Stops (limitReached limit) m issued k reason issued')
    (hissued : ∀ n ∈ limit, issued.toNat ≤ n.toNat) :
    (reason = .halted ∧ m.HaltsAt k ∧ ∀ n ∈ limit, issued.toNat + k ≤ n.toNat) ∨
      (reason = .predicate ∧ (∀ h, m.HaltsAt h → k < h) ∧
        ∃ n ∈ limit, issued.toNat + k = n.toNat) := by
  induction h with
  | halted hm => exact .inl ⟨rfl, Machine.haltsAt_zero hm, hissued⟩
  | predicate hm hstop =>
    cases limit with
    | none => cases hstop
    | some n =>
      rw [limitReached_some, Prod.mk.injEq, decide_eq_true_eq] at hstop
      have hreached := Nat.le_antisymm (hissued n rfl) (UInt64.le_iff_toNat_le.mp hstop.1)
      exact .inr ⟨rfl, fun _ hh => hh.pos hm, n, rfl, hreached⟩
  | @step m issued next _ k reason hm hstop rest ih =>
    -- one step has been made and the condition has been asked once
    have hnext : next = issued + 1 := (congrArg Prod.snd hstop).symm
    subst hnext
    have hroom : ∀ n ∈ limit, issued.toNat < n.toNat ∧ (issued + 1).toNat = issued.toNat + 1 := by
      rintro n rfl
      rw [limitReached_some, Prod.mk.injEq, decide_eq_false_iff_not] at hstop
      exact toNat_add_one_of_not_le hstop.1
    obtain ⟨hr, hhalts, hle⟩ | ⟨hr, hlater, n, hn, heq⟩ := ih fun n hn => by
      have := hroom n hn
      omega
    · refine .inl ⟨hr, (Machine.haltsAt_succ hm).mpr hhalts, fun n hn => ?_⟩
      have := hroom n hn
      have := hle n hn
      omega
    · refine .inr ⟨hr, fun h hh => ?_, n, hn, ?_⟩
      · obtain ⟨h, rfl⟩ := Nat.exists_eq_add_one_of_ne_zero (Nat.ne_of_gt (hh.pos hm))
        exact Nat.succ_lt_succ (hlater h ((Machine.haltsAt_succ hm).mp hh))
      · have := hroom n hn
        omega

/-- A run stops where the processor is halted or the limit is reached, at the latest. -/
theorem exists_stops
    (h : (Machine.steps k m).halted = true ∨ ∃ n ∈ limit, n.toNat ≤ issued.toNat + k) :
    ∃ k reason issued', Stops (limitReached limit) m issued k reason issued' := by
  induction k generalizing m issued with
  | zero =>
    obtain hm | ⟨n, rfl, hn⟩ := h
    · exact ⟨_, _, _, .halted hm⟩
    · cases hm : m.halted with
      | true => exact ⟨_, _, _, .halted hm⟩
      | false =>
        have hreached : limitReached (some n) issued m = (true, issued + 1) := by
          rw [limitReached_some, decide_eq_true (UInt64.le_iff_toNat_le.mpr hn)]
        exact ⟨_, _, _, .predicate hm hreached⟩
  | succ k ih =>
    cases hm : m.halted with
    | true => exact ⟨_, _, _, .halted hm⟩
    | false =>
      cases hdone : (limitReached limit issued m).1 with
      | true => exact ⟨_, _, _, .predicate hm (Prod.ext hdone rfl)⟩
      | false =>
        have hnext : (Machine.steps k m.step).halted = true ∨
            ∃ n ∈ limit, n.toNat ≤ (issued + 1).toNat + k := by
          refine h.imp id ?_
          rintro ⟨n, rfl, hn⟩
          have := toNat_add_one_of_not_le (of_decide_eq_false hdone)
          exact ⟨n, rfl, by omega⟩
        obtain ⟨k', reason, issued', hstops⟩ := ih hnext
        exact ⟨_, _, _, .step hm (Prod.ext hdone rfl) hstops⟩

/-! ## The outcome -/

/-- The outcome is read off the scheduler that the run has idled to. -/
theorem conclude_eq (limit : Option UInt64) (stopOnHalt : Bool) (reason : StopReason)
    (s : Scheduler) :
    (conclude limit stopOnHalt reason s).machine = s.machine ∧
      (conclude limit stopOnHalt reason s).steps = s.steps ∧
      (conclude limit stopOnHalt reason s).cycles = s.total := by
  unfold conclude
  split
  · cases limit <;> exact ⟨rfl, rfl, rfl⟩
  · exact ⟨rfl, rfl, rfl⟩

/-- The steps made and those idled from there to the limit are where the run is to end. -/
theorem ends_conclude (h : Stops (limitReached limit) m 0 k reason issued) (s : Scheduler) :
    Ends m (limit.map UInt64.toNat) stopOnHalt (conclude limit stopOnHalt reason s).reason
      (k + ((idleLimit limit stopOnHalt reason).toNat - k.toUInt64.toNat)) := by
  obtain ⟨rfl, hhalts, hle⟩ | ⟨rfl, hlater, n, rfl, hn⟩ :=
    halts_or_limit_of_stops h fun n _ => Nat.zero_le n.toNat
  · cases limit with
    | none =>
      have hidle : idleLimit none stopOnHalt .halted = 0 := by cases stopOnHalt <;> rfl
      have hreason : (conclude none stopOnHalt .halted s).reason = .halted := by
        cases stopOnHalt <;> rfl
      rw [hidle, hreason, UInt64.toNat_zero, Nat.zero_sub]
      exact .unlimited hhalts
    | some n =>
      have hn : k ≤ n.toNat := by simpa using hle n rfl
      cases stopOnHalt with
      | true =>
        show Ends m (some n.toNat) true .halted (k + (0 - k.toUInt64.toNat))
        rw [Nat.zero_sub]
        exact .halted hhalts hn
      | false =>
        -- the steps from the halt to the limit are idle ones
        have hk : k.toUInt64.toNat = k :=
          UInt64.toNat_ofNat_of_lt' (Nat.lt_of_le_of_lt hn n.toNat_lt)
        show Ends m (some n.toNat) false .predicate (k + (n.toNat - k.toUInt64.toNat))
        rw [hk, Nat.add_sub_cancel' hn]
        exact .idled hhalts hn
  · have hreached : n.toNat = k := hn.symm.trans (Nat.zero_add k)
    show Ends m (some n.toNat) stopOnHalt .predicate (k + (0 - k.toUInt64.toNat))
    rw [hreached, Nat.zero_sub]
    exact .limit hlater

/-- The outcome of a run is the machine after the steps after which it is to end; the steps
    and their T-states are counted. -/
theorem ends_run (h : run c limit stopOnHalt fuel m = some out) :
    ∃ k, Ends m (limit.map UInt64.toNat) stopOnHalt out.reason k ∧
      out.machine = Machine.steps k m ∧ out.steps = k.toUInt64 ∧
      out.cycles = (Machine.stepsTime k m).toUInt64 := by
  rw [run] at h
  split at h
  next => cases h
  next reason hreason =>
    obtain ⟨s, hidle, rfl⟩ := Option.map_eq_some_iff.mp h
    obtain ⟨k, hstops, hrun, -⟩ := Scheduler.stops_of_runUntil rfl rfl hreason
    -- idling starts from the steps made, which leaves it those up to its limit
    obtain ⟨hmade, -⟩ := hrun.counted rfl rfl
    have hidled := Scheduler.advance_idleUntil hidle
    rw [hmade] at hidled
    have hall := hrun.trans hidled
    obtain ⟨hcounted, htimed⟩ := hall.counted rfl rfl
    obtain ⟨hmachine, hsteps, hcycles⟩ := conclude_eq limit stopOnHalt reason s
    exact ⟨_, ends_conclude hstops s, hmachine.trans hall.machine, hsteps.trans hcounted,
      hcycles.trans htimed⟩

/-- A run that is to end does so, with any sufficient number of polls the same. -/
theorem exists_run (m : Machine) (limit : Option UInt64) (stopOnHalt : Bool) (hpause : 0 < c.pause)
    (h : limit = none → ∃ k, m.HaltsAt k) :
    ∃ enough out, ∀ fuel, enough ≤ fuel → run c limit stopOnHalt fuel m = some out := by
  have hends : ∃ k, (Machine.steps k m).halted = true ∨
      ∃ n ∈ limit, n.toNat ≤ (0 : UInt64).toNat + k := by
    cases limit with
    | none =>
      obtain ⟨k, hk⟩ := h rfl
      exact ⟨k, .inl hk.1⟩
    | some n => exact ⟨n.toNat, .inr ⟨n, rfl, Nat.le_add_left ..⟩⟩
  obtain ⟨_, hends⟩ := hends
  obtain ⟨k, reason, issued, hstops⟩ := exists_stops hends
  obtain ⟨r, hreason, hpauses, hr⟩ := Scheduler.exists_runUntil hstops c
    (s := (Scheduler.ofMachine m).start) rfl rfl
  obtain ⟨-, -, -, hrunning⟩ := Scheduler.stops_of_runUntil rfl (hr (k + 1) k.lt_succ_self) hreason
  obtain ⟨enough, s, hs⟩ := Scheduler.exists_idleUntil (idleLimit limit stopOnHalt reason) r.clock
    r.scheduler (hpauses ▸ hpause) hrunning
  -- both loops of the run are given the same number of polls
  refine ⟨max (k + 1) enough, conclude limit stopOnHalt reason s, fun fuel hfuel => ?_⟩
  rw [run, hr fuel (Nat.le_trans (Nat.le_max_left ..) hfuel)]
  simp only [hreason, hs fuel (Nat.le_trans (Nat.le_max_right ..) hfuel), Option.map_some]

/-- A run makes the number of steps, and ends for the reason, that the first halt of the
    machine, the limit and `stopOnHalt` decide, and it reports this number and the sum of the
    T-states in 64 bits: exactly, as long as they are below 2^64, which the number of steps
    always is with a limit.  Two runs of a program at different clocks, and whatever the
    wall clock shows, differ in nothing but the clock of the machine.  A run with a limit ends,
    and so does one without if the machine halts, provided that pauses take time. -/
theorem run_ends (m : Machine) (limit : Option UInt64) (stopOnHalt : Bool) (c : WallClock) :
    (∀ fuel out, run c limit stopOnHalt fuel m = some out →
      ∃ k, Ends m (limit.map UInt64.toNat) stopOnHalt out.reason k ∧
        out.machine = Machine.steps k m ∧
        out.steps.toNat = k % 0x10000000000000000 ∧
        out.cycles.toNat = Machine.stepsTime k m % 0x10000000000000000 ∧
        (limit.isSome → out.steps.toNat = k)) ∧
    (∀ fuel out, run c limit stopOnHalt fuel m = some out → ∀ (cfg : Clock) c' fuel' out',
      run c' limit stopOnHalt fuel' { m with clock := cfg } = some out' →
      out'.reason = out.reason ∧ out'.steps = out.steps ∧ out'.cycles = out.cycles ∧
        out'.machine = { out.machine with clock := cfg }) ∧
    (0 < c.pause → (limit = none → ∃ h, m.HaltsAt h) →
      ∃ enough out, ∀ fuel, enough ≤ fuel → run c limit stopOnHalt fuel m = some out) := by
  refine ⟨?_, ?_, exists_run m limit stopOnHalt⟩
  · intro fuel out h
    obtain ⟨k, hends, hmachine, hsteps, hcycles⟩ := ends_run h
    refine ⟨k, hends, hmachine, congrArg UInt64.toNat hsteps, congrArg UInt64.toNat hcycles, ?_⟩
    intro hlimit
    obtain ⟨n, rfl⟩ := Option.isSome_iff_exists.mp hlimit
    rw [hsteps]
    exact UInt64.toNat_ofNat_of_lt' (Nat.lt_of_le_of_lt hends.le_limit n.toNat_lt)
  · intro fuel out h cfg c' fuel' out' h'
    obtain ⟨k, hends, hmachine, hsteps, hcycles⟩ := ends_run h
    obtain ⟨k', hends', hmachine', hsteps', hcycles'⟩ := ends_run h'
    obtain ⟨hreason, rfl⟩ := hends'.of_withClock.unique hends
    refine ⟨hreason, hsteps'.trans hsteps.symm, ?_, ?_⟩
    · rw [hcycles', hcycles, Machine.stepsTime_withClock]
    · rw [hmachine', hmachine, Machine.steps_withClock]

/-- A single HALT idles through a limit of four steps.  Without pacing the run can be
    evaluated; in real time it ends as well, and in the same way. -/
theorem run_ends_atCode_halt :
    let m := Machine.atCode 0 [0x76]
    let free := { m with clock := { realtime := false } }
    Ends m (some 4) false .predicate 4 ∧
      (∃ out, run .ideal (some 4) false 4 free = some out ∧ out.steps = 4) ∧
      ∃ fuel out, run .ideal (some 4) false fuel m = some out ∧ out.reason = .predicate ∧
        out.steps = 4 ∧ out.cycles = 16 ∧ out.machine = Machine.steps 4 m := by
  have hevaluated : (run .ideal (some 4) false 4
      { Machine.atCode 0 [0x76] with clock := { realtime := false } }).map
      (fun out => (out.reason, out.steps, out.cycles)) = some (.predicate, 4, 16) := rfl
  intro m free
  obtain ⟨outFree, hfree, hshown⟩ := Option.map_eq_some_iff.mp hevaluated
  rw [Prod.mk.injEq, Prod.mk.injEq] at hshown
  obtain ⟨hreason, hsteps, hcycles⟩ := hshown
  obtain ⟨enough, out, hout⟩ :=
    (run_ends m (some 4) false .ideal).2.2 (by decide) fun h => nomatch h
  have hpaced := hout enough (Nat.le_refl _)
  obtain ⟨k, hends, hmachine, -, -, hcounted⟩ :=
    (run_ends m (some 4) false .ideal).1 enough out hpaced
  -- the machine of the evaluated run is the other one with its clock changed
  obtain ⟨hreason', hsteps', hcycles', -⟩ :=
    (run_ends m (some 4) false .ideal).2.1 enough out hpaced _ .ideal 4 outFree hfree
  rw [hreason] at hreason'
  rw [hsteps] at hsteps'
  rw [hcycles] at hcycles'
  obtain rfl : 4 = k := by
    rw [← hcounted rfl, ← hsteps']
    rfl
  rw [← hreason'] at hends
  exact ⟨hends, ⟨outFree, hfree, hsteps⟩,
    enough, out, hpaced, hreason'.symm, hsteps'.symm, hcycles'.symm, hmachine⟩

end Runner

end Z80
