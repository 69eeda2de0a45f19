/-
  Z80.Proofs.Scheduling

  What a scheduler does over any sequence of calls.

  A sequence of starts, exits and polls is a list, the latest call first.  Of such a
  list it can be told without looking into the scheduler whether it is running
  (`Call.started`) and which poll has set the instant to wait for
  (`Scheduler.lastIssue?`); a poll executes a step exactly if these two allow it
  (`poll_after`).  However the calls are mixed, the scheduler has executed one step
  for each poll that returned a time (`advance_after`).

  In a series of polls at the pace of the clock each poll that executes a step comes
  no earlier than the time of the step before it allows (`issues_paced`).
-/

import Mathlib.Algebra.GroupWithZero.Nat
import Mathlib.Data.List.Chain
import Z80.Scheduler

namespace Z80

/-! ## Calls -/

/-- What a scheduler can be asked to do. -/
inductive Call where
  | start
  | exit
  /-- A poll made at `now`; a step that it executes is finished at `finished`. -/
  | poll (now finished : Nat)
  deriving DecidableEq, Repr

/-- Whether the latest start or exit among calls is a start. -/
def Call.started : List Call → Bool
  | [] => false
  | .start :: _ => true
  | .exit :: _ => false
  | .poll _ _ :: calls => started calls

/-- A poll that executed a step: when it was made, when the step was finished, and its
    T-states. -/
structure Issue where
  now : Nat
  finished : Nat
  cycles : Nat
  deriving DecidableEq, Repr

/-- The instant that a poll makes the next step wait for. -/
def Issue.due (p : Pacer) (e : Issue) : Nat :=
  e.finished + p.delay e.cycles (e.finished - e.now)

namespace Scheduler

/-- The scheduler after a call, and what a poll returned. -/
def serve (s : Scheduler) : Call → Scheduler × Option Nat
  | .start => (s.start, none)
  | .exit => (s.exit, none)
  | .poll now finished => s.poll now finished

/-- The scheduler after calls. -/
def after (s : Scheduler) : List Call → Scheduler
  | [] => s
  | call :: calls => ((s.after calls).serve call).1

/-- What a poll made after calls returned, as an executed step. -/
def issue? (s : Scheduler) (now finished : Nat) : Option Issue :=
  (s.poll now finished).2.map (Issue.mk now finished)

/-- The polls among calls that returned the time of a step. -/
def issues (s : Scheduler) : List Call → List Issue
  | [] => []
  | .poll now finished :: calls =>
    ((s.after calls).issue? now finished).toList ++ s.issues calls
  | _ :: calls => s.issues calls

/-- The latest poll since the latest start that returned the time of a step. -/
def lastIssue? (s : Scheduler) : List Call → Option Issue
  | [] => none
  | .start :: _ => none
  | .exit :: calls => s.lastIssue? calls
  | .poll now finished :: calls =>
    ((s.after calls).issue? now finished).or (s.lastIssue? calls)

/-! ## One poll -/

theorem ready_iff (s : Scheduler) (now : Nat) :
    s.ready now = true ↔ s.running = true ∧ ∀ d ∈ s.due, d ≤ now := by
  cases hdue : s.due with
  | none => simp [ready, hdue]
  | some d => simp [ready, hdue]

theorem issue?_of_ready {s : Scheduler} {now : Nat} (h : s.ready now = true) (finished : Nat) :
    s.issue? now finished = some ⟨now, finished, s.machine.step.cycles⟩ := by
  rw [issue?, poll_of_ready h]
  rfl

theorem issue?_of_not_ready {s : Scheduler} {now : Nat} (h : s.ready now = false)
    (finished : Nat) : s.issue? now finished = none := by
  rw [issue?, poll_of_not_ready h]
  rfl

theorem running_poll (s : Scheduler) (now finished : Nat) :
    (s.poll now finished).1.running = s.running := by
  cases h : s.ready now with
  | true => rw [poll_of_ready h]; rfl
  | false => rw [poll_of_not_ready h]

/-- A poll that executes a step sets the instant to wait for; any other keeps it. -/
theorem due_poll (s : Scheduler) (now finished : Nat) :
    (s.poll now finished).1.due =
      ((s.issue? now finished).map (Issue.due s.pacer)).or s.due := by
  cases h : s.ready now with
  | true => rw [poll_of_ready h, issue?_of_ready h]; rfl
  | false => rw [poll_of_not_ready h, issue?_of_not_ready h]; rfl

end Scheduler

/-! ## Steps executed -/

/-- Numbers counted in 64 bits add up however far they go. -/
theorem Nat.toUInt64_add (a b : Nat) : (a + b).toUInt64 = a.toUInt64 + b.toUInt64 :=
  UInt64.ofNat_add a b

theorem Machine.stepsTime_add (a b : Nat) (m : Machine) :
    stepsTime (a + b) m = stepsTime a m + stepsTime b (steps a m) := by
  induction a generalizing m with
  | zero => simp [stepsTime, steps]
  | succ a ih =>
    rw [Nat.succ_add, stepsTime, ih, stepsTime, steps, Nat.add_assoc]

namespace Scheduler

/-- The scheduler `s'` has executed `n` steps since it was `s`. -/
structure Advance (s : Scheduler) (n : Nat) (s' : Scheduler) : Prop where
  machine : s'.machine = Machine.steps n s.machine
  steps : s'.steps = s.steps + n.toUInt64
  total : s'.total = s.total + (Machine.stepsTime n s.machine).toUInt64
  pacer : s'.pacer = s.pacer

theorem Advance.of_unchanged {s s' : Scheduler} (machine : s'.machine = s.machine)
    (steps : s'.steps = s.steps) (total : s'.total = s.total) (pacer : s'.pacer = s.pacer) :
    s.Advance 0 s' where
  machine := machine
  steps := steps.trans (UInt64.add_zero s.steps).symm
  total := total.trans (UInt64.add_zero s.total).symm
  pacer := pacer

theorem Advance.refl (s : Scheduler) : s.Advance 0 s :=
  .of_unchanged rfl rfl rfl rfl

theorem Advance.trans {s₁ s₂ s₃ : Scheduler} {a b : Nat} (h : s₁.Advance a s₂)
    (h' : s₂.Advance b s₃) : s₁.Advance (a + b) s₃ where
  machine := by rw [h'.machine, h.machine, Machine.steps_add]
  steps := by rw [h'.steps, h.steps, UInt64.add_assoc, Nat.toUInt64_add]
  total := by
    rw [h'.total, h.total, h.machine, Machine.stepsTime_add, UInt64.add_assoc, Nat.toUInt64_add]
  pacer := h'.pacer.trans h.pacer

/-- Counters that were at zero hold the number of steps and their T-states. -/
theorem Advance.counted {s s' : Scheduler} {n : Nat} (h : s.Advance n s') (hsteps : s.steps = 0)
    (htotal : s.total = 0) :
    s'.steps = n.toUInt64 ∧ s'.total = (Machine.stepsTime n s.machine).toUInt64 := by
  constructor
  · rw [h.steps, hsteps, UInt64.zero_add]
  · rw [h.total, htotal, UInt64.zero_add]

theorem advance_start (s : Scheduler) : s.Advance 0 s.start :=
  .of_unchanged rfl rfl rfl rfl

theorem advance_exit (s : Scheduler) : s.Advance 0 s.exit :=
  .of_unchanged rfl rfl rfl rfl

theorem advance_issue (s : Scheduler) (now finished : Nat) :
    s.Advance 1 (s.issue now finished) :=
  ⟨rfl, rfl, rfl, rfl⟩

/-- The scheduler has executed a step for every poll that returned the time of one. -/
theorem advance_after (s : Scheduler) (calls : List Call) :
    s.Advance (s.issues calls).length (s.after calls) := by
  induction calls with
  | nil => exact .refl s
  | cons call calls ih =>
    cases call with
    | start => exact ih.trans (advance_start _)
    | exit => exact ih.trans (advance_exit _)
    | poll now finished =>
      rw [after, serve, issues]
      cases h : (s.after calls).ready now with
      | true =>
        rw [poll_of_ready h, issue?_of_ready h]
        exact ih.trans (advance_issue ..)
      | false =>
        rw [poll_of_not_ready h, issue?_of_not_ready h]
        exact ih

/-- The times returned are those of the steps executed. -/
theorem sum_cycles_issues (s : Scheduler) (calls : List Call) :
    ((s.issues calls).map Issue.cycles).sum =
      Machine.stepsTime (s.issues calls).length s.machine := by
  induction calls with
  | nil => rfl
  | cons call calls ih =>
    cases call with
    | start => exact ih
    | exit => exact ih
    | poll now finished =>
      rw [issues]
      cases h : (s.after calls).ready now with
      | true =>
        rw [issue?_of_ready h, (s.advance_after calls).machine]
        simp only [Option.toList_some, List.cons_append, List.nil_append, List.map_cons,
          List.sum_cons, List.length_cons, Machine.stepsTime_add, ih]
        exact Nat.add_comm ..
      | false =>
        rw [issue?_of_not_ready h]
        exact ih

/-! ## Any sequence of calls -/

theorem running_after (m : Machine) (calls : List Call) :
    ((ofMachine m).after calls).running = Call.started calls := by
  induction calls with
  | nil => rfl
  | cons call calls ih =>
    cases call with
    | start => rfl
    | exit => rfl
    | poll now finished => exact (running_poll ..).trans ih

/-- A running scheduler waits for the instant that the latest poll since the latest
    start has set; one that is not running waits for nothing. -/
theorem due_after (m : Machine) (calls : List Call) :
    ((ofMachine m).after calls).due =
      if Call.started calls then
        ((ofMachine m).lastIssue? calls).map (Issue.due (.ofClock m.clock))
      else none := by
  induction calls with
  | nil => rfl
  | cons call calls ih =>
    cases call with
    | start => rfl
    | exit => rfl
    | poll now finished =>
      have hpacer : ((ofMachine m).after calls).pacer = .ofClock m.clock :=
        ((ofMachine m).advance_after calls).pacer
      rw [after, serve, due_poll, ih, hpacer, Call.started, lastIssue?]
      cases hstarted : Call.started calls with
      | true =>
        rw [if_pos rfl, if_pos rfl, Option.map_or]
      | false =>
        -- a scheduler that is not running executes nothing
        have hidle : ((ofMachine m).after calls).ready now = false := by
          rw [ready, running_after, hstarted, Bool.false_and]
        rw [issue?_of_not_ready hidle]
        rfl

/-- A poll executes a step and returns its T-states exactly if the scheduler is running
    and no poll since the latest start has set an instant that is still to come; any other
    poll returns nothing and changes nothing.  After any calls the scheduler is running
    if the latest start or exit was a start, it has counted the polls that returned a
    time and the sum of the times, both in 64 bits and so exactly as long as they are below
    2^64, its machine is the first one after that many steps, and it waits for nothing unless
    it is running.  A start and an exit keep all that but for what is waited for. -/
theorem poll_after (m : Machine) (calls : List Call) :
    let s := (ofMachine m).after calls
    let issues := (ofMachine m).issues calls
    (s.running = Call.started calls ∧
      s.steps.toNat = issues.length % 0x10000000000000000 ∧
      s.total.toNat = (issues.map Issue.cycles).sum % 0x10000000000000000 ∧
      s.machine = Machine.steps issues.length m ∧ (s.running = false → s.due = none)) ∧
    (∀ now finished,
      ((s.poll now finished).2.isSome = true ↔ s.running = true ∧
        ∀ e ∈ (ofMachine m).lastIssue? calls, e.due (.ofClock m.clock) ≤ now) ∧
      (∀ t, (s.poll now finished).2 = some t →
        t = s.machine.step.cycles ∧ (s.poll now finished).1.machine = s.machine.step) ∧
      ((s.poll now finished).2 = none → s.poll now finished = (s, none))) ∧
    ∀ next ∈ [s.start, s.exit], next.machine = s.machine ∧ next.steps = s.steps ∧
      next.total = s.total ∧ next.due = none := by
  intro s issues
  have hadvance : (ofMachine m).Advance issues.length s := advance_after _ calls
  have hrunning : s.running = Call.started calls := running_after m calls
  have hdue : s.due = if Call.started calls then
      ((ofMachine m).lastIssue? calls).map (Issue.due (.ofClock m.clock)) else none :=
    due_after m calls
  obtain ⟨hsteps, htotal⟩ := hadvance.counted rfl rfl
  refine ⟨⟨hrunning, congrArg UInt64.toNat hsteps, ?_, hadvance.machine, ?_⟩, ?_, ?_⟩
  · rw [htotal, ← sum_cycles_issues]
    rfl
  · intro hstopped
    rw [hdue, ← hrunning, hstopped, if_neg Bool.false_ne_true]
  · intro now finished
    have hready : s.ready now = true ↔ s.running = true ∧
        ∀ e ∈ (ofMachine m).lastIssue? calls, e.due (.ofClock m.clock) ≤ now := by
      rw [ready_iff]
      refine and_congr_right fun hstarted => ?_
      rw [hdue, ← hrunning, hstarted, if_pos rfl]
      simp only [Option.mem_def, Option.map_eq_some_iff, forall_exists_index, and_imp,
        forall_apply_eq_imp_iff₂]
    rw [← hready]
    cases h : s.ready now with
    | true =>
      rw [poll_of_ready h]
      refine ⟨by simp, ?_, by simp⟩
      intro t ht
      exact ⟨(Option.some.inj ht).symm, rfl⟩
    | false =>
      rw [poll_of_not_ready h]
      exact ⟨by simp, by simp, fun _ => rfl⟩
  · intro next hnext
    simp only [List.mem_cons, List.not_mem_nil, or_false] at hnext
    obtain rfl | rfl := hnext
    · exact ⟨rfl, rfl, rfl, rfl⟩
    · exact ⟨rfl, rfl, rfl, rfl⟩

/-! ## Polls at the pace of the clock -/

/-- Polls, as calls. -/
def polls (times : List (Nat × Nat)) : List Call :=
  times.map fun t => .poll t.1 t.2

/-- A series of polls starts and stops nothing; if none is running, none executes. -/
theorem running_after_polls (s : Scheduler) (times : List (Nat × Nat)) :
    (s.after (polls times)).running = s.running ∧
      (s.running = false → s.issues (polls times) = []) := by
  induction times with
  | nil => exact ⟨rfl, fun _ => rfl⟩
  | cons t times ih =>
    obtain ⟨hrunning, hnone⟩ := ih
    refine ⟨(running_poll ..).trans hrunning, fun hstopped => ?_⟩
    have hidle : (s.after (polls times)).ready t.1 = false := by
      rw [ready, hrunning, hstopped, Bool.false_and]
    show ((s.after (polls times)).issue? t.1 t.2).toList ++ s.issues (polls times) = []
    rw [issue?_of_not_ready hidle, hnone hstopped]
    rfl

theorem due_after_polls (s : Scheduler) (times : List (Nat × Nat)) :
    (s.after (polls times)).due =
      ((s.issues (polls times)).head?.map (Issue.due s.pacer)).or s.due := by
  induction times with
  | nil => rfl
  | cons t times ih =>
    have hpacer : (s.after (polls times)).pacer = s.pacer := (s.advance_after _).pacer
    show ((s.after (polls times)).poll t.1 t.2).1.due = _
    rw [due_poll, hpacer, ih]
    show _ = ((((s.after (polls times)).issue? t.1 t.2).toList ++
      s.issues (polls times)).head?.map (Issue.due s.pacer)).or s.due
    cases (s.after (polls times)).issue? t.1 t.2 <;> rfl

/-- Each poll that executes a step comes when the step before it allows it. -/
theorem isChain_due (s : Scheduler) (times : List (Nat × Nat)) :
    (s.issues (polls times)).IsChain fun later earlier => earlier.due s.pacer ≤ later.now := by
  induction times with
  | nil => exact .nil
  | cons t times ih =>
    show (((s.after (polls times)).issue? t.1 t.2).toList ++
      s.issues (polls times)).IsChain _
    cases h : (s.after (polls times)).ready t.1 with
    | false =>
      rw [issue?_of_not_ready h]
      exact ih
    | true =>
      rw [issue?_of_ready h]
      have hdue := ((ready_iff ..).mp h).2
      rw [due_after_polls] at hdue
      cases hissues : s.issues (polls times) with
      | nil => exact .singleton _
      | cons e earlier =>
        rw [hissues] at ih hdue
        exact .cons_cons (hdue _ rfl) ih

end Scheduler

namespace Issue

/-- A poll comes no earlier than the step of an earlier one was finished, and no earlier
    than the time of that step, as long as `duration` says, after it was made. -/
structure Paced (duration : Nat → Nat) (later earlier : Issue) : Prop where
  finished : earlier.finished ≤ later.now
  duration : earlier.now + duration earlier.cycles ≤ later.now

/-- Whether the step was finished before its time had passed or after, the next one
    waits for both. -/
theorem paced_of_due {p : Pacer} (hp : p.realtime = true) {later earlier : Issue}
    (hnow : earlier.now ≤ earlier.finished) (hdue : earlier.due p ≤ later.now) :
    Paced p.durationOf later earlier := by
  have hdelay :=
    Pacer.durationOf_le_elapsed_add_delay hp earlier.cycles (earlier.finished - earlier.now)
  rw [due] at hdue
  constructor <;> omega

/-- The durations of all steps but the latest fit between the first poll and the
    latest. -/
theorem sum_durations_le {duration : Nat → Nat} {first last : Issue} {earlier : List Issue}
    (h : (last :: earlier).IsChain (Paced duration))
    (hfirst : (last :: earlier).getLast? = some first) :
    first.now + (earlier.map fun e => duration e.cycles).sum ≤ last.now := by
  induction earlier generalizing last with
  | nil =>
    cases hfirst
    exact Nat.le_refl _
  | cons e earlier ih =>
    obtain ⟨hpaced, hrest⟩ := List.isChain_cons_cons.mp h
    have hsum := ih hrest (by rwa [List.getLast?_cons_cons] at hfirst)
    have hstep := hpaced.duration
    rw [List.map_cons, List.sum_cons]
    omega

end Issue

namespace Scheduler

/-- The polls of a series that execute a step never run ahead of the clock.  With a pacer
    that keeps to the clock, whatever its durations, and steps that are not finished before
    their polls are made, each of them comes no earlier than the step before it was
    finished and no earlier than the duration of that step after its poll; so the latest
    comes at least the durations of all steps before it after the first.  With a pacer
    that does not keep to the clock the next step is due when one is finished, however
    long that one takes. -/
theorem issues_paced (s : Scheduler) (times : List (Nat × Nat)) :
    let issues := s.issues (polls times)
    (s.pacer.realtime = true → (∀ e ∈ issues, e.now ≤ e.finished) →
      issues.IsChain (Issue.Paced s.pacer.durationOf) ∧
      ∀ first last earlier, issues = last :: earlier → issues.getLast? = some first →
        first.now + (earlier.map fun e => s.pacer.durationOf e.cycles).sum ≤ last.now) ∧
    (s.pacer.realtime = false → ∀ e ∈ issues.head?, ∀ now finished,
      ((s.after (polls times)).poll now finished).2.isSome = true ↔ e.finished ≤ now) := by
  intro issues
  constructor
  · intro hreal hnow
    have hpaced : issues.IsChain (Issue.Paced s.pacer.durationOf) :=
      (s.isChain_due times).imp_of_mem_imp fun _ earlier _ hearlier hdue =>
        Issue.paced_of_due hreal (hnow earlier hearlier) hdue
    refine ⟨hpaced, fun first last earlier hissues hfirst => ?_⟩
    rw [hissues] at hpaced hfirst
    exact Issue.sum_durations_le hpaced hfirst
  · intro hfree e he now finished
    obtain ⟨hrunning, hnone⟩ := s.running_after_polls times
    have hstarted : s.running = true := by
      by_contra hstopped
      have hempty : issues = [] := hnone (Bool.eq_false_iff.mpr hstopped)
      rw [hempty] at he
      cases he
    have hdue : (s.after (polls times)).due = some e.finished := by
      rw [due_after_polls, show (s.issues (polls times)).head? = some e from he]
      show some (e.finished + s.pacer.delay e.cycles (e.finished - e.now)) = _
      rw [Pacer.delay_of_not_realtime hfree, Nat.add_zero]
    have hready : (s.after (polls times)).ready now = true ↔ e.finished ≤ now := by
      rw [ready_iff, hrunning, hstarted, hdue]
      simp
    rw [← hready]
    cases h : (s.after (polls times)).ready now with
    | true => simp [poll_of_ready h]
    | false => simp [poll_of_not_ready h]

/-- Polls of a halted machine at ten nanoseconds for a T-state: one is too early, and one
    finishes after the time of its step has passed. -/
theorem issues_paced_late :
    let m := { Machine.initial {} with halted := true }
    let s := { (ofMachine m).start with pacer := ⟨true, fun t => 10 * t⟩ }
    let issues := s.issues (polls [(90, 91), (45, 90), (30, 31), (0, 1)])
    issues = [⟨90, 91, 4⟩, ⟨45, 90, 4⟩, ⟨0, 1, 4⟩] ∧
      issues.IsChain (Issue.Paced fun t => 10 * t) ∧
      0 + ([⟨45, 90, 4⟩, ⟨0, 1, 4⟩].map fun e : Issue => 10 * e.cycles).sum ≤ 90 := by
  intro m s issues
  have hissues : issues = [⟨90, 91, 4⟩, ⟨45, 90, 4⟩, ⟨0, 1, 4⟩] := by rfl
  obtain ⟨hreal, -⟩ := issues_paced s [(90, 91), (45, 90), (30, 31), (0, 1)]
  obtain ⟨hchain, hsum⟩ := hreal rfl (by rw [show s.issues _ = _ from hissues]; decide)
  exact ⟨hissues, hchain, hsum ⟨0, 1, 4⟩ ⟨90, 91, 4⟩ _ hissues rfl⟩

end Scheduler

end Z80
