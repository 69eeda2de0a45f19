/-
  Z80.Proofs.StopConditions

  Runs until a condition that keeps a state of its own.

  A run asks its condition once before each step, of the machine as it is then, and the
  condition may remember.  So its answer after `n` steps is the one that it gives when it is
  asked for the time `n + 1` (`answerAfter`), and a run ends after the least number of steps
  at which the machine is halted or that answer is yes (`endings`).

    * `stops_of_isLeast`: from any machine and any state of the condition, that is where a
      run is to stop, in the sense of `Stops`.
    * `map_runUntil`: conditions that answer alike make the same run.  So does a condition
      that also writes down what it is asked of (`recorded`).

  The main statement is `runUntil_least`.
-/

import Z80.Proofs.Runs

namespace Z80

open Machine (steps stepsTime)

variable {σ τ : Type}

/-! ## What a condition says in the course of a run -/

namespace Condition

/-- The state of a condition that has been asked once before each of `n` steps. -/
def stateAfter (stop : σ → Machine → Bool × σ) (m : Machine) (st : σ) : Nat → σ
  | 0 => st
  | n + 1 => (stop (stateAfter stop m st n) (steps n m)).2

/-- What a condition answers when it is asked after `n` steps, which is for the time
    `n + 1`. -/
def answerAfter (stop : σ → Machine → Bool × σ) (m : Machine) (st : σ) (n : Nat) : Bool :=
  (stop (stateAfter stop m st n) (steps n m)).1

/-- The numbers of steps after which there is a reason to end. -/
def endings (stop : σ → Machine → Bool × σ) (m : Machine) (st : σ) : Set Nat :=
  {n | (steps n m).halted = true ∨ answerAfter stop m st n = true}

/-- The reason of a run that ends after `k` steps: a halt comes before the condition. -/
def reasonAfter (m : Machine) (k : Nat) : StopReason :=
  if (steps k m).halted then .halted else .predicate

/-- How often a run that ends after `k` steps asks: of a halted machine nothing is asked. -/
def asksWithin (m : Machine) (k : Nat) : Nat :=
  if (steps k m).halted then k else k + 1

/-- A condition that keeps the machines that it has been asked of, in order, beside its
    state. -/
def recorded (stop : σ → Machine → Bool × σ) :
    σ × List Machine → Machine → Bool × (σ × List Machine) :=
  fun (st, asked) m => ((stop st m).1, (stop st m).2, asked ++ [m])

variable {stop : σ → Machine → Bool × σ} {m : Machine} {st st₁ st₂ : σ} {k k' : Nat}
  {reason reason' : StopReason}

/-- The first answer moves the condition on, as the first step moves the machine. -/
theorem stateAfter_step (stop : σ → Machine → Bool × σ) (m : Machine) (st : σ) (n : Nat) :
    stateAfter stop m.step (stop st m).2 n = stateAfter stop m st (n + 1) := by
  induction n with
  | zero => rfl
  | succ n ih =>
    rw [stateAfter, ih, stateAfter]
    rfl

theorem mem_endings_zero :
    0 ∈ endings stop m st ↔ m.halted = true ∨ (stop st m).1 = true := Iff.rfl

theorem mem_endings_succ (n : Nat) :
    n + 1 ∈ endings stop m st ↔ n ∈ endings stop m.step (stop st m).2 := by
  show _ ∨ (stop (stateAfter stop m st (n + 1)) _).1 = true ↔
    _ ∨ (stop (stateAfter stop m.step (stop st m).2 n) _).1 = true
  rw [stateAfter_step]
  rfl

/-- Where there is no reason to end the machine runs and the condition says no. -/
theorem running_of_not_mem_endings (h : 0 ∉ endings stop m st) :
    m.halted = false ∧ stop st m = (false, (stop st m).2) := by
  rw [mem_endings_zero, not_or, Bool.not_eq_true, Bool.not_eq_true] at h
  exact ⟨h.1, Prod.ext h.2 rfl⟩

/-- Writing down what is asked changes no answer, so it changes no ending. -/
theorem stateAfter_recorded (stop : σ → Machine → Bool × σ) (m : Machine) (st : σ) (n : Nat) :
    stateAfter (recorded stop) m (st, []) n =
      (stateAfter stop m st n, (List.range n).map (steps · m)) := by
  induction n with
  | zero => rfl
  | succ n ih =>
    rw [stateAfter, ih, List.range_succ, List.map_append]
    rfl

theorem endings_recorded (stop : σ → Machine → Bool × σ) (m : Machine) (st : σ) :
    endings (recorded stop) m (st, []) = endings stop m st := by
  ext n
  show _ ∨ (recorded stop (stateAfter (recorded stop) m (st, []) n) _).1 = true ↔ _
  rw [stateAfter_recorded]
  rfl

/-! ## Where a run is to stop -/

theorem asksWithin_step (m : Machine) (k : Nat) :
    asksWithin m (k + 1) = asksWithin m.step k + 1 := by
  show (if (steps k m.step).halted then k + 1 else k + 1 + 1) =
    (if (steps k m.step).halted then k else k + 1) + 1
  split <;> rfl

/-- The machines of which a run that ends after `k` steps asks. -/
theorem range_asksWithin (m : Machine) (k : Nat) :
    (List.range (asksWithin m k)).map (steps · m) =
      (List.range k).map (steps · m) ++ if (steps k m).halted then [] else [steps k m] := by
  cases hm : (steps k m).halted with
  | true =>
    rw [asksWithin, hm, if_pos rfl, if_pos rfl, List.append_nil]
  | false =>
    rw [asksWithin, hm, if_neg Bool.false_ne_true, if_neg Bool.false_ne_true, List.range_succ,
      List.map_append]
    rfl

/-- The least number of steps after which there is a reason to end is where a run is to
    stop. -/
theorem stops_of_isLeast (h : IsLeast (endings stop m st) k) :
    Stops stop m st k (reasonAfter m k) (stateAfter stop m st (asksWithin m k)) := by
  induction k generalizing m st with
  | zero =>
    cases hm : m.halted with
    | true =>
      have hreason : reasonAfter m 0 = .halted := if_pos hm
      have hasks : asksWithin m 0 = 0 := if_pos hm
      rw [hreason, hasks]
      exact .halted hm
    | false =>
      have hrunning : ¬m.halted = true := Bool.eq_false_iff.mp hm
      have hreason : reasonAfter m 0 = .predicate := if_neg hrunning
      have hasks : asksWithin m 0 = 1 := if_neg hrunning
      have hanswer : (stop st m).1 = true := (mem_endings_zero.mp h.1).resolve_left hrunning
      rw [hreason, hasks]
      exact .predicate hm (Prod.ext hanswer rfl)
  | succ k ih =>
    have hfirst : 0 ∉ endings stop m st := fun h0 => absurd (h.2 h0) (Nat.not_succ_le_zero k)
    obtain ⟨hm, hno⟩ := running_of_not_mem_endings hfirst
    -- after one step and one answer the endings are the same, each one step nearer
    have hleast : IsLeast (endings stop m.step (stop st m).2) k := by
      refine ⟨(mem_endings_succ k).mp h.1, fun n hn => ?_⟩
      exact Nat.le_of_succ_le_succ (h.2 ((mem_endings_succ n).mpr hn))
    rw [asksWithin_step, ← stateAfter_step]
    exact .step hm hno (ih hleast)

/-- A run is to stop in one way at most. -/
theorem stops_unique (h : Stops stop m st k reason st₁) (h' : Stops stop m st k' reason' st₂) :
    k = k' ∧ reason = reason' ∧ st₁ = st₂ := by
  induction h generalizing k' with
  | halted hm =>
    cases h' with
    | halted => exact ⟨rfl, rfl, rfl⟩
    | predicate hm' => cases hm.symm.trans hm'
    | step hm' => cases hm.symm.trans hm'
  | predicate hm hstop =>
    cases h' with
    | halted hm' => cases hm.symm.trans hm'
    | predicate _ hstop' => exact ⟨rfl, rfl, congrArg Prod.snd (hstop.symm.trans hstop')⟩
    | step _ hstop' => cases hstop.symm.trans hstop'
  | step hm hstop _ ih =>
    cases h' with
    | halted hm' => cases hm.symm.trans hm'
    | predicate _ hstop' => cases hstop.symm.trans hstop'
    | step _ hstop' rest' =>
      obtain rfl : _ = _ := congrArg Prod.snd (hstop.symm.trans hstop')
      obtain ⟨rfl, rfl, rfl⟩ := ih rest'
      exact ⟨rfl, rfl, rfl⟩

end Condition

/-! ## Conditions that answer alike -/

/-- How far a run has come, with the state of the condition seen through a function. -/
def Run.map (f : σ → τ) (r : Run σ) : Run τ :=
  ⟨r.scheduler, r.clock, f r.state, r.reason⟩

namespace Scheduler

open Condition

variable {stop : σ → Machine → Bool × σ} {st : σ} {s : Scheduler} {c : WallClock} {k : Nat}

/-- A condition that answers like another, and whose state can be seen in that of the
    other, makes the same run. -/
theorem map_runUntil {f : σ → τ} {stop' : τ → Machine → Bool × τ}
    (h : ∀ st m, stop' (f st) m = ((stop st m).1, f (stop st m).2)) (fuel : Nat) :
    s.runUntil c stop' fuel (f st) = (s.runUntil c stop fuel st).map f := by
  induction fuel generalizing c st s with
  | zero => rfl
  | succ fuel ih =>
    rw [runUntil, runUntil, h]
    cases s.running with
    | false => rfl
    | true =>
      cases s.machine.halted with
      | true => rfl
      | false =>
        obtain ⟨answer, next, hstop⟩ : ∃ answer next, stop st s.machine = (answer, next) :=
          ⟨_, _, rfl⟩
        rw [hstop]
        cases answer with
        | true => rfl
        | false => exact ih

/-- While there is no reason to end a run goes on. -/
theorem reason_runUntil_eq_none (hs : s.running = true) {fuel : Nat}
    (h : ∀ n < fuel, n ∉ endings stop s.machine st) :
    (s.runUntil c stop fuel st).reason = none := by
  induction fuel generalizing c st s with
  | zero => rfl
  | succ fuel ih =>
    -- the condition may have changed its state, so the induction is over all of them
    obtain ⟨hm, hno⟩ := running_of_not_mem_endings (h 0 fuel.succ_pos)
    rw [runUntil_of_step c hs hm hno]
    refine ih (s := s.issue _ _) hs fun n hn => ?_
    exact fun hmem => h (n + 1) (Nat.succ_lt_succ hn) ((mem_endings_succ n).mpr hmem)

/-- A run with enough polls ends after the least number of steps at which there is a
    reason to. -/
theorem runUntil_of_isLeast (hs : s.running = true)
    (h : IsLeast (endings stop s.machine st) k) {fuel : Nat} (hfuel : k < fuel) :
    let r := s.runUntil c stop fuel st
    r.reason = some (reasonAfter s.machine k) ∧
      r.state = stateAfter stop s.machine st (asksWithin s.machine k) ∧
      s.Advance k r.scheduler := by
  intro r
  have hstops := stops_of_isLeast h
  obtain ⟨r', hreason, -, hr'⟩ := exists_runUntil hstops c hs rfl
  have hr : r = r' := hr' fuel hfuel
  rw [hr]
  -- the run says itself where it has stopped, and there is one way to
  obtain ⟨k', hstops', hadvance, -⟩ := stops_of_runUntil hs (hr' fuel hfuel) hreason
  obtain ⟨rfl, -, hstate⟩ := stops_unique hstops hstops'
  exact ⟨hreason, hstate.symm, hadvance⟩

/-- A run until a condition that may keep a state of its own, from any scheduler and whatever
    the wall clock shows.

    If the scheduler is running, the run ends after the least number `k` of steps at which the
    machine is halted or the condition, asked for the time `k + 1`, says yes; without such a
    number it never ends.  It has then asked of the machines after 0, 1, ..., `k - 1` steps,
    once of each and in this order, and of the machine after `k` steps only if that is not
    halted, in which case the condition is the reason.  The scheduler has made `k` steps and
    counted them and their T-states, in 64 bits.  A scheduler that is not running asks nothing
    and makes no step. -/
theorem runUntil_least (stop : σ → Machine → Bool × σ) (st : σ) (c : WallClock) (s : Scheduler) :
    let run (fuel : Nat) := s.runUntil c (recorded stop) fuel (st, [])
    let after (n : Nat) := Machine.steps n s.machine
    let ends (n : Nat) := (after n).halted = true ∨ answerAfter stop s.machine st n = true
    (∀ fuel, s.runUntil c stop fuel st = (run fuel).map Prod.fst) ∧
    (s.running = true →
      (∀ k, IsLeast {n | ends n} k → ∀ fuel, k < fuel →
        (run fuel).reason = some (if (after k).halted then .halted else .predicate) ∧
        (run fuel).state.2 =
          (List.range k).map after ++ (if (after k).halted then [] else [after k]) ∧
        (run fuel).scheduler.machine = after k ∧
        (run fuel).scheduler.steps = s.steps + k.toUInt64 ∧
        (run fuel).scheduler.total = s.total + (stepsTime k s.machine).toUInt64) ∧
      ∀ fuel, (∀ n < fuel, ¬ends n) → (run fuel).reason = none) ∧
    (s.running = false → ∀ fuel, run (fuel + 1) = ⟨s, c, (st, []), some .exited⟩) := by
  intro run after ends
  refine ⟨?_, fun hs => ⟨?_, ?_⟩, ?_⟩
  · intro fuel
    have hanswers (st : σ × List Machine) (m : Machine) :
        stop st.1 m = ((recorded stop st m).1, (recorded stop st m).2.1) := rfl
    show s.runUntil c stop fuel (st, ([] : List Machine)).1 = _
    exact map_runUntil hanswers fuel
  · intro k hk fuel hfuel
    have hleast : IsLeast (endings (recorded stop) s.machine (st, [])) k := by
      rw [endings_recorded]
      exact hk
    obtain ⟨hreason, hstate, hadvance⟩ := runUntil_of_isLeast (c := c) hs hleast hfuel
    have hasked := congrArg Prod.snd hstate
    rw [stateAfter_recorded, range_asksWithin] at hasked
    exact ⟨hreason, hasked, hadvance.machine, hadvance.steps, hadvance.total⟩
  · intro fuel h
    apply reason_runUntil_eq_none hs
    rw [endings_recorded]
    exact h
  · intro hs fuel
    show s.runUntil c (recorded stop) (fuel + 1) (st, []) = _
    rw [runUntil, hs]
    rfl

/-- NOP and HALT.  The halt comes before the answer of a condition that says yes when it is
    asked for the fifth time; one that says yes the second time ends the run in front of the
    HALT. -/
theorem runUntil_least_atCode :
    let m := Machine.atCode 0 [0x00, 0x76]
    let s := (ofMachine m).start
    let time (i : Nat) : Nat → Machine → Bool × Nat := fun n _ => (n + 1 == i, n + 1)
    let fifth := s.runUntil .ideal (recorded (time 5)) 9 (0, [])
    let second := s.runUntil .ideal (recorded (time 2)) 9 (0, [])
    fifth.reason = some .halted ∧ fifth.state.2 = [m, m.step] ∧ fifth.scheduler.total = 8 ∧
      second.reason = some .predicate ∧ second.state.2 = [m, m.step] ∧
      second.scheduler.total = 4 := by
  intro m s time fifth second
  have hnop : m.step = m.execute ⟨.nop, 1, false⟩ := by
    have hcurrent : m.current = ⟨.nop, 1, false⟩ := by
      simp [m, Machine.atCode, Machine.current, Machine.pc, Space.load, Space.get_set]
      rfl
    rw [Machine.step_of_running rfl, hcurrent]
  have hhalt : m.step.step = m.step.execute ⟨.halt, 1, false⟩ := by
    have hcurrent : m.step.current = ⟨.halt, 1, false⟩ := by
      have hpc : (0 : Word) + (1 : Nat).toUInt16 = 1 := by decide
      rw [hnop]
      show decode (m.mem.get ((0 : Word) + (1 : Nat).toUInt16)) _ _ _ = _
      rw [hpc]
      simp [m, Machine.atCode, Space.load]
      rfl
    have hrunning : m.step.halted = false := by rw [hnop]; rfl
    rw [Machine.step_of_running hrunning, hcurrent]
  have hzero : (Machine.steps 0 m).halted = false := rfl
  have hone : (Machine.steps 1 m).halted = false := by
    show m.step.halted = false
    rw [hnop]
    rfl
  have htwo : (Machine.steps 2 m).halted = true := by
    show m.step.step.halted = true
    rw [hhalt]
    rfl
  have htime : stepsTime 1 m = 4 ∧ stepsTime 2 m = 8 := by
    show m.step.cycles + 0 = 4 ∧ m.step.cycles + (m.step.step.cycles + 0) = 8
    rw [hhalt, hnop]
    exact ⟨rfl, rfl⟩
  have hfifth : IsLeast {n | (Machine.steps n m).halted = true ∨
      answerAfter (time 5) m 0 n = true} 2 := by
    refine ⟨.inl htwo, fun n hn => ?_⟩
    by_contra hlt
    obtain rfl | rfl : n = 0 ∨ n = 1 := by omega
    · exact hn.elim (fun h => by simp [hzero] at h) (fun h => by cases h)
    · exact hn.elim (fun h => by simp [hone] at h) (fun h => by cases h)
  have hsecond : IsLeast {n | (Machine.steps n m).halted = true ∨
      answerAfter (time 2) m 0 n = true} 1 := by
    refine ⟨.inr rfl, fun n hn => ?_⟩
    by_contra hlt
    obtain rfl : n = 0 := by omega
    exact hn.elim (fun h => by simp [hzero] at h) (fun h => by cases h)
  obtain ⟨hreason, hasked, -, -, htotal⟩ :=
    ((runUntil_least (time 5) 0 .ideal s).2.1 rfl).1 2 hfifth 9 (by omega)
  obtain ⟨hreason', hasked', -, -, htotal'⟩ :=
    ((runUntil_least (time 2) 0 .ideal s).2.1 rfl).1 1 hsecond 9 (by omega)
  refine ⟨hreason.trans ?_, hasked.trans ?_, htotal.trans ?_, hreason'.trans ?_,
    hasked'.trans ?_, htotal'.trans ?_⟩
  · exact congrArg some (if_pos htwo)
  · exact congrArg ([m, m.step] ++ ·) (if_pos htwo)
  · exact (UInt64.zero_add _).trans (congrArg Nat.toUInt64 htime.2)
  · exact congrArg some (if_neg (Bool.eq_false_iff.mp hone))
  · exact congrArg ([m] ++ ·) (if_neg (Bool.eq_false_iff.mp hone))
  · exact (UInt64.zero_add _).trans (congrArg Nat.toUInt64 htime.1)

end Scheduler

end Z80
