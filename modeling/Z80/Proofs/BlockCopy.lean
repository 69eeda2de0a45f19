/-
  Z80.Proofs.BlockCopy

  LDIR and LDDR.

  A run copies BC bytes one after the other, each from memory as the copies before have
  left it (`Space.copy`).  If no destination is a source still to be read, this is a copy of
  the original bytes (`get_copy`).  The main statement is `runsBlock_load`: how often the
  instruction is executed and the whole machine afterwards.
-/

import Z80.Proofs.BlockRuns

namespace Z80

/-! ## Copies one after the other -/

namespace Space

/-- The first `n` bytes from `src` on in a direction copied to `dst` on, one after the
    other. -/
def copy (s : Space) (dir : Direction) (src dst : Word) : Nat → Space
  | 0 => s
  | n + 1 =>
    let t := s.copy dir src dst n
    t.set (dir.along dst n) (t.get (dir.along src n))

/-- A copy changes its destinations only. -/
theorem get_copy_of_ne (s : Space) (dir : Direction) (src dst : Word) {n : Nat} {a : Word}
    (h : ∀ i < n, a ≠ dir.along dst i) : (s.copy dir src dst n).get a = s.get a := by
  induction n with
  | zero => rfl
  | succ n ih =>
    rw [copy, get_set_of_ne _ _ (h n (Nat.lt_succ_self n))]
    exact ih fun i hi => h i (Nat.lt_succ_of_lt hi)

end Space

/-- How far `dst` is ahead of `src` in a direction, around the ends of the space. -/
def Direction.lead (dir : Direction) (src dst : Word) : Nat :=
  match dir with
  | up => (dst - src).toNat
  | down => (src - dst).toNat

/-- A source that is a destination of an earlier copy is fewer copies behind. -/
theorem Direction.lead_of_along_eq {dir : Direction} {src dst : Word} {i n : Nat} (hi : i < n)
    (hn : n < 65536) (h : dir.along src n = dir.along dst i) : dir.lead src dst = n - i := by
  have hsplit : n.toUInt16 = i.toUInt16 + (n - i).toUInt16 := by
    have hadd : (i + (n - i)).toUInt16 = i.toUInt16 + (n - i).toUInt16 := UInt16.ofNat_add _ _
    rwa [Nat.add_sub_cancel' (Nat.le_of_lt hi)] at hadd
  have hround : (n - i).toUInt16.toNat = n - i := by
    show (n - i) % 65536 = n - i
    omega
  cases dir with
  | up =>
    have hword : dst - src = (n - i).toUInt16 := by
      dsimp only [along] at h
      grind
    rw [lead, hword, hround]
  | down =>
    have hword : src - dst = (n - i).toUInt16 := by
      dsimp only [along] at h
      grind
    rw [lead, hword, hround]

/-- Each destination gets the original byte of its source, if the destinations are the
    sources themselves or so far ahead that no source is overwritten before it is read. -/
theorem Space.get_copy (s : Space) {dir : Direction} {src dst : Word} {n : Nat}
    (hn : n ≤ 65536) (hlead : dir.lead src dst = 0 ∨ n ≤ dir.lead src dst) :
    ∀ i < n, (s.copy dir src dst n).get (dir.along dst i) = s.get (dir.along src i) := by
  induction n with
  | zero => exact fun i hi => absurd hi (Nat.not_lt_zero i)
  | succ n ih =>
    -- the copies so far have not reached the next source
    have hsource : ∀ j < n, dir.along src n ≠ dir.along dst j := by
      intro j hj h
      have := Direction.lead_of_along_eq hj hn h
      omega
    intro i hi
    obtain hlt | rfl := Nat.lt_or_eq_of_le (Nat.le_of_lt_succ hi)
    · have hne : dir.along dst i ≠ dir.along dst n := by
        intro h
        have := dir.along_inj dst (by omega) (by omega) h
        omega
      rw [copy, get_set_of_ne _ _ hne]
      exact ih (Nat.le_of_succ_le hn) (hlead.imp_right Nat.le_of_succ_le) i hlt
    · rw [copy, get_set_self]
      exact get_copy_of_ne s dir src dst hsource

/-! ## Rounds -/

namespace Machine

variable (m : Machine) (dir : Direction)

theorem mem_rounds_load (n : Nat) :
    (rounds .load dir n m).mem = m.mem.copy dir m.hl m.de n := by
  induction n with
  | zero => rfl
  | succ n ih =>
    show (rounds .load dir n m).mem.set (rounds .load dir n m).de
      ((rounds .load dir n m).mem.get (rounds .load dir n m).hl) = _
    rw [ih, de_rounds, hl_rounds]
    rfl

/-- A copy keeps S, Z and C, clears H and N, and shows in P/V whether BC is zero. -/
theorem flags_rounds_load (n : Nat) : ∃ x y, (rounds .load dir (n + 1) m).flags =
    { m.flags with h := false, n := false, pv := m.bc - (n + 1).toUInt16 != 0, x, y } := by
  have hbc (k : Nat) : (rounds .load dir k m).bc = m.bc - k.toUInt16 := bc_rounds m .load dir k
  have hround (k : Nat) : ∃ x y, (rounds .load dir (k + 1) m).flags =
      { (rounds .load dir k m).flags with
        h := false, n := false, pv := (rounds .load dir (k + 1) m).bc != 0, x, y } := by
    have hcount : (rounds .load dir (k + 1) m).bc = (rounds .load dir k m).bc - 1 :=
      Word.ofBytes_hi_lo _
    rw [hcount]
    exact ⟨_, _, rfl⟩
  induction n with
  | zero =>
    rw [← hbc]
    exact hround 0
  | succ n ih =>
    obtain ⟨x, y, ih⟩ := ih
    rw [← hbc]
    obtain ⟨x', y', h⟩ := hround (n + 1)
    rw [ih] at h
    exact ⟨x', y', h⟩

theorem blockContinues_rounds_load {i : Nat} (hi : i < m.bc.turns) :
    (rounds .load dir i m).blockContinues .load = (i + 1 != m.bc.turns) := by
  rw [blockContinues, bc_rounds]
  exact m.bc.counted hi

/-! ## Runs -/

variable {m : Machine} {dir : Direction}

/-- LDIR and LDDR, if no copy but the last one changes the two bytes of the instruction.  They
    are executed as often as BC says.  Then BC is zero, HL and DE have moved as far, memory
    holds the copies done one after the other, and F keeps S, Z and C.  If the destinations
    are the sources or far enough ahead of them, each holds the original byte of its
    source. -/
theorem runsBlock_load (hat : m.AtBlock .load dir)
    (hstands : ∀ i < m.bc.turns, ∀ a ∈ [m.pc, m.pc + 1],
      (m.mem.copy dir m.hl m.de i).get a = m.mem.get a) :
    let n := m.bc.turns
    let after := steps n m
    m.RunsBlock .load dir n ∧
    after.pc = m.pc + 2 ∧
    after.bc = 0 ∧
    after.hl = dir.along m.hl n ∧
    after.de = dir.along m.de n ∧
    after.regs.r = Registers.refreshed^[2 * n] m.regs.r ∧
    after.mem = m.mem.copy dir m.hl m.de n ∧
    after.ports = m.ports ∧
    after.flags = { m.flags with
      h := false, n := false, pv := false, x := after.flags.x, y := after.flags.y } ∧
    (dir.lead m.hl m.de = 0 ∨ n ≤ dir.lead m.hl m.de →
      (∀ i < n, after.mem.get (dir.along m.de i) = m.mem.get (dir.along m.hl i)) ∧
      ∀ a, (∀ i < n, a ≠ dir.along m.de i) → after.mem.get a = m.mem.get a) := by
  intro n after
  obtain ⟨hruns, hrounds⟩ := runsBlock m.bc.turns_pos hat
    (fun i hi => by
      rw [mem_rounds_load]
      exact hstands i hi)
    fun i hi => blockContinues_rounds_load m dir hi
  obtain ⟨hmem, hports, hflags⟩ := hrounds n (Nat.le_refl n)
  rw [mem_rounds_load] at hmem
  have hflags' : ∃ x y,
      after.flags = { m.flags with h := false, n := false, pv := false, x, y } := by
    obtain ⟨k, hk⟩ : ∃ k, n = k + 1 := Nat.exists_eq_add_one.mpr m.bc.turns_pos
    obtain ⟨x, y, h⟩ := flags_rounds_load m dir k
    rw [← hk, m.bc.sub_turns] at h
    exact ⟨x, y, hflags.trans h⟩
  refine ⟨hruns, hruns.pc, ?_, hruns.hl, hruns.de, hruns.r, hmem, ?_, ?_, fun hlead => ?_⟩
  · exact hruns.bc.trans m.bc.sub_turns
  · exact hports.trans (ports_rounds m dir (by decide) n)
  · obtain ⟨x, y, h⟩ := hflags'
    rw [h]
  · rw [hmem]
    exact ⟨m.mem.get_copy m.bc.turns_le hlead, fun a => m.mem.get_copy_of_ne dir m.hl m.de⟩

/-- LDIR at the top of memory over its own source: the byte at 8000h fills what follows. -/
theorem runsBlock_load_atCode :
    let m := ((((atCode 0xFFFE [0xED, 0xB0]).store 0x8000 0xAA).setPair (.bank .hl) 0x8000).setPair
      (.bank .de) 0x8001).setPair (.bank .bc) 2
    m.AtBlock .load .up ∧ m.RunsBlock .load .up 2 ∧ (steps 2 m).pc = 0 ∧
      (steps 2 m).mem.get 0x8002 = 0xAA := by
  intro m
  have hcode : m.mem = ((Space.zero.set 0xFFFE 0xED).set 0xFFFF 0xB0).set 0x8000 0xAA := rfl
  have hrunning : m.halted = false := rfl
  have hat : m.pc = 0xFFFE := rfl
  have hhl : m.hl = 0x8000 := Word.ofBytes_hi_lo 0x8000
  have hde : m.de = 0x8001 := Word.ofBytes_hi_lo 0x8001
  have hbc : m.bc = 2 := Word.ofBytes_hi_lo 2
  clear_value m
  have hturns : m.bc.turns = 2 := by rw [hbc]; decide
  have hblock : m.AtBlock .load .up := by
    refine ⟨hrunning, ?_, ?_⟩
    · simp [hcode, hat, Space.get_set]
    · simp [hcode, hat, Space.get_set, BlockOp.code]
  obtain ⟨hruns, hpc, -, -, -, -, hmem, -⟩ := runsBlock_load hblock fun i hi a ha => by
    apply Space.get_copy_of_ne
    intro j hj
    have hj : j = 0 ∨ j = 1 := by omega
    simp only [hat, List.mem_cons, List.not_mem_nil, or_false] at ha
    rw [hde]
    obtain rfl | rfl := hj <;> obtain rfl | rfl := ha <;> decide
  rw [hturns] at hruns hpc hmem
  refine ⟨hblock, hruns, ?_, ?_⟩
  · rw [hpc, hat]
    rfl
  · rw [hmem, hhl, hde, hcode]
    simp [Space.copy, Direction.along]

/-- Halted at LDIR with one byte to copy: no step gets behind the instruction. -/
theorem stuck_at_load :
    let m := { (atCode 0 [0xED, 0xB0]).setPair (.bank .bc) 1 with halted := true }
    m.mem.get m.pc = 0xED ∧ m.mem.get (m.pc + 1) = BlockOp.code .load .up ∧ m.bc.turns = 1 ∧
      ∀ n, (steps n m).pc ≠ m.pc + 2 := by
  intro m
  have hcode : m.mem = (Space.zero.set 0 0xED).set 1 0xB0 := rfl
  have hat : m.pc = 0 := rfl
  have hhalted : m.halted = true := rfl
  have hbc : m.bc = 1 := Word.ofBytes_hi_lo 1
  clear_value m
  refine ⟨?_, ?_, ?_, pc_steps_of_halted hhalted⟩
  · simp [hcode, hat, Space.get_set]
  · simp [hcode, hat, BlockOp.code]
  · rw [hbc]
    decide

end Machine

end Z80
