/-
  Z80.Proofs.StackDiscipline

  The stack in memory.

  PUSH, CALL and RST push words; POP, RET, RETN and RETI pop them.  A run is a sequence of
  such instructions with the words that they have pushed, read in the registers before, and
  the words that they have popped, read in the registers behind them (`StackRun`).  What else
  happens between two of them is left open, as long as SP and memory stay.

  As long as a run never pops more than it has pushed, and its words fit the address space,
  memory from SP up holds the words pushed and not yet popped (`Simulates`).  Each push and
  each pop keeps that up, so the words come back last in, first out.  The main statement is
  `StackRun.discipline`.
-/

import Z80.Proofs.BlockRuns
import Z80.Proofs.Machine

namespace Z80

/-! ## Cells and words -/

/-- The `n` cells below an address, around the end of the space. -/
def Word.below (a : Word) (n : Nat) : List Word :=
  (List.range n).map fun i => a - (i + 1).toUInt16

theorem Word.sub_mem_below (a : Word) {i n : Nat} (h : i < n) :
    a - (i + 1).toUInt16 ∈ a.below n :=
  List.mem_map_of_mem (List.mem_range.mpr h)

theorem Word.sub_add_two (a : Word) (n : Nat) :
    a - (n + 2).toUInt16 = a - n.toUInt16 - 2 := by
  rw [show (n + 2).toUInt16 = n.toUInt16 + 2 from UInt16.ofNat_add n 2]
  grind

theorem Direction.up_along_add_two (a : Word) (i : Nat) :
    up.along (a + 2) i = up.along a (i + 2) := by
  have h : (i + 2).toUInt16 = i.toUInt16 + 2 := UInt16.ofNat_add i 2
  dsimp only [along]
  grind

namespace Space

/-- The `n` words from an address on. -/
def words (s : Space) (a : Word) : Nat → List Word
  | 0 => []
  | n + 1 => s.getWord a :: s.words (a + 2) n

theorem words_congr {s t : Space} {a : Word} {n : Nat}
    (h : ∀ i < 2 * n, t.get (Direction.up.along a i) = s.get (Direction.up.along a i)) :
    t.words a n = s.words a n := by
  induction n generalizing a with
  | zero => rfl
  | succ n ih =>
    have hlo : t.get a = s.get a := by
      simpa using h 0 (by omega)
    have hhi : t.get (a + 1) = s.get (a + 1) := h 1 (by omega)
    have hrest : t.words (a + 2) n = s.words (a + 2) n := by
      apply ih
      intro i hi
      rw [Direction.up_along_add_two]
      exact h (i + 2) (by omega)
    rw [words, words, getWord, getWord, hlo, hhi, hrest]

/-- A word written below others does not reach around the space into them. -/
theorem words_setWord (s : Space) (a w : Word) {n : Nat} (hn : n < 32768) :
    (s.setWord a w).words a (n + 1) = w :: s.words (a + 2) n := by
  rw [words, getWord_setWord, List.cons.injEq]
  refine ⟨rfl, words_congr fun i hi => ?_⟩
  have hne {j : Nat} (hj : j < 2) : Direction.up.along a (i + 2) ≠ Direction.up.along a j := by
    intro h
    have := Direction.up.along_inj a (by omega) (by omega) h
    omega
  have hlo : Direction.up.along a (i + 2) ≠ a := by
    simpa using hne (j := 0) (by omega)
  have hhi : Direction.up.along a (i + 2) ≠ a + 1 := hne (j := 1) (by omega)
  rw [Direction.up_along_add_two, get_setWord, if_neg hhi, if_neg hlo]

end Space

/-! ## Pushes and pops -/

/-- What an instruction does to the stack. -/
inductive StackEvent where
  | push (w : Word)
  | pop (w : Word)
  deriving DecidableEq, Repr

namespace StackEvent

def isPush : StackEvent → Bool
  | push _ => true
  | pop _ => false

/-- The number of pushes. -/
def pushes (es : List StackEvent) : Nat :=
  es.countP isPush

/-- The number of pops. -/
def pops (es : List StackEvent) : Nat :=
  es.countP (!·.isPush)

@[simp] theorem pushes_push (w : Word) (es : List StackEvent) :
    pushes (push w :: es) = pushes es + 1 :=
  List.countP_cons_of_pos rfl

@[simp] theorem pushes_pop (w : Word) (es : List StackEvent) :
    pushes (pop w :: es) = pushes es :=
  List.countP_cons_of_neg Bool.false_ne_true

@[simp] theorem pops_push (w : Word) (es : List StackEvent) : pops (push w :: es) = pops es :=
  List.countP_cons_of_neg Bool.false_ne_true

@[simp] theorem pops_pop (w : Word) (es : List StackEvent) : pops (pop w :: es) = pops es + 1 :=
  List.countP_cons_of_pos rfl

theorem pushes_append (es es' : List StackEvent) :
    pushes (es ++ es') = pushes es + pushes es' :=
  List.countP_append

theorem pops_append (es es' : List StackEvent) : pops (es ++ es') = pops es + pops es' :=
  List.countP_append

/-- The number of words pushed and not yet popped. -/
def depth (es : List StackEvent) : Nat :=
  pushes es - pops es

/-- No prefix pops more than it pushes, and none is deeper than `limit`. -/
def Nested (limit : Nat) (es : List StackEvent) : Prop :=
  ∀ es', es' <+: es → pops es' ≤ pushes es' ∧ depth es' ≤ limit

/-- Events that match each other: every push is popped, and every pop has its push. -/
inductive Matched : List StackEvent → Prop
  | nil : Matched []
  | nest (w v : Word) {inner rest : List StackEvent} (hinner : Matched inner)
      (hrest : Matched rest) : Matched (push w :: inner ++ pop v :: rest)

/-- A stack of words, the top word first, after an event.  Only the top word can be
    popped. -/
def onStack? (ws : List Word) : StackEvent → Option (List Word)
  | push w => some (w :: ws)
  | pop w =>
    match ws with
    | [] => none
    | top :: rest => if w = top then some rest else none

/-- A stack of words after a sequence of events. -/
def replay? (ws : List Word) (es : List StackEvent) : Option (List Word) :=
  es.foldlM onStack? ws

theorem replay?_append (ws : List Word) (es es' : List StackEvent) :
    replay? ws (es ++ es') = (replay? ws es).bind (replay? · es') :=
  List.foldlM_append ..

@[simp] theorem replay?_push (ws : List Word) (w : Word) (es : List StackEvent) :
    replay? ws (push w :: es) = replay? (w :: ws) es := rfl

theorem replay?_pop {ws ws' : List Word} {w : Word} {es : List StackEvent} :
    replay? ws (pop w :: es) = some ws' ↔ ∃ rest, ws = w :: rest ∧ replay? rest es = some ws' := by
  cases ws with
  | nil => simp [replay?, onStack?]
  | cons top rest =>
    by_cases h : w = top
    · subst h
      simp [replay?, onStack?]
    · have hnone : replay? (top :: rest) (pop w :: es) = none := by
        rw [replay?, List.foldlM_cons, onStack?, if_neg h]
        rfl
      rw [hnone]
      grind

/-- A stack is as long as the pushes and pops make it. -/
theorem length_replay? {ws ws' : List Word} {es : List StackEvent}
    (h : replay? ws es = some ws') : ws'.length + pops es = ws.length + pushes es := by
  induction es generalizing ws with
  | nil =>
    obtain rfl : ws = ws' := Option.some.inj h
    rfl
  | cons e es ih =>
    cases e with
    | push w =>
      have := ih h
      rw [List.length_cons] at this
      rw [pushes_push, pops_push]
      omega
    | pop w =>
      obtain ⟨rest, rfl, hrest⟩ := replay?_pop.mp h
      have := ih hrest
      rw [pushes_pop, pops_pop, List.length_cons]
      omega

/-- Matched events leave the stack as they have found it. -/
theorem Matched.replay? {ws ws' : List Word} {es : List StackEvent} (hes : Matched es)
    (h : replay? ws es = some ws') : ws' = ws := by
  induction hes generalizing ws ws' with
  | nil => exact (Option.some.inj h).symm
  | nest w v hinner hrest ihinner ihrest =>
    rw [List.cons_append, replay?_push, replay?_append, Option.bind_eq_some_iff] at h
    obtain ⟨mid, hmid, h⟩ := h
    obtain ⟨rest, hpop, h⟩ := replay?_pop.mp h
    obtain rfl : ws = rest := (List.cons.inj ((ihinner hmid).symm.trans hpop)).2
    exact ihrest h

/-- A pop takes the word of the push that it matches. -/
theorem eq_of_matched {es es' inner : List StackEvent} {w v : Word} {ws : List Word}
    (h : StackEvent.replay? [] (es ++ push w :: inner ++ pop v :: es') = some ws)
    (hinner : Matched inner) : v = w := by
  rw [List.append_assoc, replay?_append, Option.bind_eq_some_iff] at h
  obtain ⟨before, -, h⟩ := h
  rw [List.cons_append, replay?_push, replay?_append, Option.bind_eq_some_iff] at h
  obtain ⟨mid, hmid, h⟩ := h
  obtain ⟨rest, hpop, -⟩ := replay?_pop.mp h
  exact (List.cons.inj ((hinner.replay? hmid).symm.trans hpop)).1.symm

theorem Nested.of_append {limit : Nat} {es es' : List StackEvent}
    (h : Nested limit (es ++ es')) : Nested limit es :=
  fun before hbefore => h before (hbefore.trans (List.prefix_append es es'))

/-- The stack is as deep as its events say. -/
theorem length_eq_depth {es : List StackEvent} {ws : List Word}
    (h : StackEvent.replay? [] es = some ws) : ws.length = depth es := by
  have := length_replay? h
  rw [List.length_nil] at this
  rw [depth]
  omega

/-- There is a word for every pop. -/
theorem Nested.ne_nil {limit : Nat} {es : List StackEvent} {ws : List Word} {w : Word}
    (h : Nested limit (es ++ [pop w])) (hws : StackEvent.replay? [] es = some ws) : ws ≠ [] := by
  rintro rfl
  have hle := (h _ (List.prefix_refl _)).1
  have hlength := length_replay? hws
  rw [pops_append, pushes_append, pops_pop, pushes_pop] at hle
  rw [List.length_nil] at hlength
  have : pops [] = 0 := rfl
  have : pushes [] = 0 := rfl
  omega

end StackEvent

/-! ## Instructions -/

/-- The word that an instruction pushes, on the machine that has fetched it. -/
def Instr.pushed? (m : Machine) : Instr → Option Word
  | push rr => some (m.pair rr)
  | call cc? _ => if condHolds cc? m.flags then some m.pc else none
  | rst _ => some m.pc
  | _ => none

/-- The word that an instruction has popped, read in the register where it has gone. -/
def Instr.popped? (m after : Machine) : Instr → Option Word
  -- the field of POP has AF in the place of SP
  | pop rr => if rr = .sp then none else some (after.pair rr)
  | ret cc? => if condHolds cc? m.flags then some after.pc else none
  | retn => some after.pc
  | _ => none

/-- No opcode is POP SP. -/
theorem Page.template_ne_popSp (p : Page) (op : Byte) : (p.template op).instr ≠ .pop .sp := by
  revert p op
  exact forall_opcode (by decide +kernel)

theorem Instr.eq_popSp_of_withBytes {i : Instr} {n₁ n₂ : Byte}
    (h : i.withBytes n₁ n₂ = .pop .sp) : i = .pop .sp := by
  cases i with
  | pop rr => exact h
  | unimplemented opcode => cases opcode <;> cases h
  | _ => cases h

namespace Machine

/-- The instruction at the program counter is never POP SP. -/
theorem current_ne_popSp (m : Machine) : m.current.instr ≠ .pop .sp := by
  intro h
  rw [current_eq_withBytes] at h
  exact Page.template_ne_popSp _ _ (Instr.eq_popSp_of_withBytes h)

variable {m : Machine} {i : Instr} {w : Word}

theorem effect_of_pushed (h : i.pushed? m = some w) :
    (i.effect (i.taken m) m).regs.sp = m.regs.sp - 2 ∧
      (i.effect (i.taken m) m).mem = m.mem.setWord (m.regs.sp - 2) w := by
  cases i with
  | push rr =>
    obtain rfl := Option.some.inj h
    exact ⟨rfl, rfl⟩
  | call cc? nn =>
    simp only [Instr.pushed?, Option.ite_none_right_eq_some, Option.some.injEq] at h
    obtain ⟨htaken, rfl⟩ := h
    rw [Instr.taken, htaken]
    exact ⟨rfl, rfl⟩
  | rst target =>
    obtain rfl := Option.some.inj h
    exact ⟨rfl, rfl⟩
  | _ => cases h

theorem effect_of_popped (h : i.popped? m (i.effect (i.taken m) m) = some w) :
    (i.effect (i.taken m) m).regs.sp = m.regs.sp + 2 ∧
      (i.effect (i.taken m) m).mem = m.mem ∧ w = m.top := by
  cases i with
  | pop rr =>
    simp only [Instr.popped?, Option.ite_none_left_eq_some, Option.some.injEq] at h
    obtain ⟨hsp, rfl⟩ := h
    refine ⟨?_, mem_setPair m.drop rr m.top, (pair_setPair m.drop rr rr m.top).trans (if_pos rfl)⟩
    exact (pair_setPair m.drop rr .sp m.top).trans (if_neg (Ne.symm hsp))
  | ret cc? =>
    simp only [Instr.popped?, Option.ite_none_right_eq_some, Option.some.injEq] at h
    obtain ⟨htaken, rfl⟩ := h
    rw [Instr.taken, htaken]
    exact ⟨rfl, rfl, rfl⟩
  | retn =>
    obtain rfl := Option.some.inj h
    exact ⟨rfl, rfl, rfl⟩
  | _ => cases h

end Machine

/-! ## Runs -/

open StackEvent

/-- A run of pushes and pops: the events so far, and the machine behind the last. -/
inductive StackRun (start : Machine) : List StackEvent → Machine → Prop
  | start : StackRun start [] start
  /-- Anything may happen between two events, except to SP and to memory. -/
  | between {es : List StackEvent} {m m' : Machine} (h : StackRun start es m)
      (hsp : m'.regs.sp = m.regs.sp) (hmem : m'.mem = m.mem) : StackRun start es m'
  | push {es : List StackEvent} {m : Machine} {d : Decoded} {w : Word} (h : StackRun start es m)
      (hpush : d.instr.pushed? (m.fetch d) = some w) :
      StackRun start (es ++ [.push w]) (m.execute d)
  | pop {es : List StackEvent} {m : Machine} {d : Decoded} {w : Word} (h : StackRun start es m)
      (hpop : d.instr.popped? (m.fetch d) (m.execute d) = some w) :
      StackRun start (es ++ [.pop w]) (m.execute d)

/-- The machine has the words `ws` on the stack, the top word first, since it was at `start`;
    it has touched at most `limit` words of memory. -/
structure Simulates (start : Machine) (limit : Nat) (ws : List Word) (m : Machine) : Prop where
  sp : m.regs.sp = start.regs.sp - (2 * ws.length).toUInt16
  words : m.mem.words m.regs.sp ws.length = ws
  outside : start.mem.SameOutside (start.regs.sp.below (2 * limit)) m.mem

namespace Simulates

variable {start m m' : Machine} {limit : Nat} {ws : List Word} {w : Word}

theorem push (h : Simulates start limit ws m) (hroom : ws.length < limit)
    (hlimit : limit ≤ 32768) (hsp : m'.regs.sp = m.regs.sp - 2)
    (hmem : m'.mem = m.mem.setWord (m.regs.sp - 2) w) : Simulates start limit (w :: ws) m' where
  sp := by
    rw [hsp, h.sp, List.length_cons, Nat.mul_succ, Word.sub_add_two]
  words := by
    rw [hsp, hmem, List.length_cons, Space.words_setWord _ _ _ (by omega),
      UInt16.sub_add_cancel, h.words]
  outside := by
    rw [hmem]
    refine h.outside.trans ((Space.sameOutside_setWord _ _ w).mono ?_)
    have hlo : m.regs.sp - 2 = start.regs.sp - (2 * ws.length + 1 + 1).toUInt16 := by
      rw [h.sp, Word.sub_add_two]
    have hhi : m.regs.sp - 2 + 1 = start.regs.sp - (2 * ws.length + 1).toUInt16 := by
      rw [h.sp, Word.sub_succ]
      grind
    rw [List.cons_subset, List.cons_subset, hhi, hlo]
    exact ⟨Word.sub_mem_below _ (by omega), Word.sub_mem_below _ (by omega), List.nil_subset _⟩

theorem top (h : Simulates start limit (w :: ws) m) : m.top = w :=
  (List.cons.inj h.words).1

theorem pop (h : Simulates start limit (w :: ws) m) (hsp : m'.regs.sp = m.regs.sp + 2)
    (hmem : m'.mem = m.mem) : Simulates start limit ws m' where
  sp := by
    rw [hsp, h.sp, List.length_cons, Nat.mul_succ, Word.sub_add_two, UInt16.sub_add_cancel]
  words := by
    rw [hsp, hmem]
    exact (List.cons.inj h.words).2
  outside := hmem ▸ h.outside

end Simulates

namespace StackRun

variable {start m : Machine} {es : List StackEvent} {limit : Nat} {w : Word}

/-- A step of a running machine is such a push. -/
theorem push_step (h : StackRun start es m) (hrun : m.halted = false)
    (hpush : m.current.instr.pushed? (m.fetch m.current) = some w) :
    StackRun start (es ++ [.push w]) m.step :=
  Machine.step_of_running hrun ▸ h.push hpush

/-- A step of a running machine is such a pop. -/
theorem pop_step (h : StackRun start es m) (hrun : m.halted = false)
    (hpop : m.current.instr.popped? (m.fetch m.current) m.step = some w) :
    StackRun start (es ++ [.pop w]) m.step := by
  rw [Machine.step_of_running hrun] at hpop ⊢
  exact h.pop hpop

/-- Memory from SP up holds what the events leave on a stack of words. -/
theorem simulates (h : StackRun start es m) (hlimit : limit ≤ 32768) (hes : Nested limit es) :
    ∃ ws, replay? [] es = some ws ∧ Simulates start limit ws m := by
  induction h with
  | start => exact ⟨[], rfl, by simp, rfl, fun _ _ => rfl⟩
  | between h hsp hmem ih =>
    obtain ⟨ws, hws, hsim⟩ := ih hes
    exact ⟨ws, hws, hsp ▸ hsim.sp, by rw [hsp, hmem, hsim.words], hmem ▸ hsim.outside⟩
  | @push es m d w h hpush ih =>
    obtain ⟨ws, hws, hsim⟩ := ih (hes.of_append)
    have hafter : replay? [] (es ++ [.push w]) = some (w :: ws) := by
      rw [replay?_append, hws]
      rfl
    obtain ⟨hsp, hmem⟩ := Machine.effect_of_pushed hpush
    refine ⟨w :: ws, hafter, hsim.push ?_ hlimit hsp hmem⟩
    calc ws.length + 1 = depth (es ++ [.push w]) := length_eq_depth hafter
      _ ≤ limit := (hes _ (List.prefix_refl _)).2
  | @pop es m d w h hpop ih =>
    obtain ⟨ws, hws, hsim⟩ := ih (hes.of_append)
    obtain ⟨hsp, hmem, rfl⟩ := Machine.effect_of_popped hpop
    cases ws with
    | nil => exact absurd rfl (hes.ne_nil hws)
    | cons top ws =>
      have htop : (m.fetch d).top = top := hsim.top
      refine ⟨ws, ?_, hsim.pop hsp hmem⟩
      rw [replay?_append, hws, htop]
      exact replay?_pop.mpr ⟨ws, rfl, rfl⟩

/-- Runs of pushes and pops use the memory below SP as a stack.  SP is below its start by the
    words on the stack; memory from SP up holds them; each pop has taken the word of the push
    that it matches; and no cell has changed but those below the start that the deepest stack
    takes.  Every part of a run up to some event is a run, so this holds at every point. -/
theorem discipline (h : StackRun start es m) (hlimit : limit ≤ 32768) (hes : Nested limit es) :
    m.regs.sp = start.regs.sp - (2 * depth es).toUInt16 ∧
    replay? [] es = some (m.mem.words m.regs.sp (depth es)) ∧
    (∀ before w inner v after, es = before ++ .push w :: inner ++ .pop v :: after →
      Matched inner → v = w) ∧
    start.mem.SameOutside (start.regs.sp.below (2 * limit)) m.mem := by
  obtain ⟨ws, hws, hsim⟩ := h.simulates hlimit hes
  have hdepth := length_eq_depth hws
  refine ⟨hdepth ▸ hsim.sp, ?_, ?_, hsim.outside⟩
  · rw [← hdepth, hsim.words, hws]
  · rintro before w inner v after rfl hinner
    exact eq_of_matched hws hinner

/-- PUSH AF and POP BC with a word that stands at both ends of memory. -/
theorem discipline_atCode :
    let m := (Machine.atCode 0x8000 [0xF5, 0xC1]).setPair .sp 1
    m.step.step.pair (.bank .bc) = m.pair (.bank .af) ∧ m.step.step.regs.sp = 1 ∧
      m.mem.SameOutside [0x0000, 0xFFFF] m.step.step.mem := by
  intro m
  have hcurrent : m.current = ⟨.push (.bank .af), 1, false⟩ := by
    have hop : m.mem.get 0x8000 = 0xF5 := by
      simp [m, Machine.atCode, Machine.setPair, Space.load, Space.get_set]
    rw [Machine.current, show m.pc = 0x8000 from rfl, hop]
    rfl
  have hstep : m.step = m.execute ⟨.push (.bank .af), 1, false⟩ := by
    rw [Machine.step_of_running rfl, hcurrent]
  have hcurrent' : m.step.current = ⟨.pop (.bank .bc), 1, false⟩ := by
    have hmem : m.step.mem = m.mem.setWord (1 - 2) (m.pair (.bank .af)) := by
      rw [hstep]
      rfl
    have hop : m.step.mem.get 0x8001 = 0xC1 := by
      rw [hmem, Space.get_setWord]
      simp [m, Machine.atCode, Machine.setPair, Space.load]
    rw [Machine.current, show m.step.pc = 0x8001 by rw [hstep]; rfl, hop]
    rfl
  have hpush : StackRun m [.push (m.pair (.bank .af))] m.step :=
    StackRun.start.push_step rfl (by rw [hcurrent]; rfl)
  have hpop : StackRun m [.push (m.pair (.bank .af)), .pop (m.step.step.pair (.bank .bc))]
      m.step.step :=
    hpush.pop_step (by rw [hstep]; rfl) (by rw [hcurrent']; rfl)
  generalize m.step.step.pair (.bank .bc) = v at hpop ⊢
  have hnested : Nested 1 [.push (m.pair (.bank .af)), .pop v] := by
    intro es hes
    obtain rfl | ⟨es, rfl, hrest⟩ := List.prefix_cons_iff.mp hes
    · exact ⟨Nat.le_refl 0, Nat.zero_le 1⟩
    obtain rfl | ⟨es, rfl, hnil⟩ := List.prefix_cons_iff.mp hrest
    · exact ⟨Nat.zero_le 1, Nat.le_refl 1⟩
    obtain rfl := List.prefix_nil.mp hnil
    exact ⟨Nat.le_refl 1, Nat.zero_le 1⟩
  obtain ⟨hsp, -, hmatched, houtside⟩ := discipline hpop (by decide) hnested
  have hstart : m.regs.sp = 1 := rfl
  have hcells : (1 : Word).below (2 * 1) = [0x0000, 0xFFFF] := by decide
  rw [hstart, show depth [.push (m.pair (.bank .af)), .pop v] = 0 from rfl] at hsp
  rw [hstart, hcells] at houtside
  exact ⟨hmatched [] _ [] _ [] rfl .nil, hsp, houtside⟩

end StackRun

end Z80
