/-
  Z80.Proofs.PrefixChains

  Runs of DD and FD bytes.

  A prefix in front of another prefix or of ED is passed over in a step of its own, and
  one step decodes no more than one prefix (`tryStep_passed_one`).  So of a run of prefixes
  of any length only the last one counts, and in front of ED not even that
  (`passesOver_prefixRun`); memory full of prefixes is passed over for ever.
-/

import Z80.Proofs.Faults
import Z80.Proofs.IndexSubstitution
import Z80.Proofs.RefreshCounter
import Z80.Proofs.SaveStates

namespace Z80

/-! ## What a prefix makes of the byte behind it -/

namespace Decode

/-- The bytes in front of which a prefix does nothing. -/
abbrev Idles (b : Byte) : Prop :=
  b = 0xDD ∨ b = 0xFD ∨ b = 0xED

theorem idles_code (x : Index) : Idles x.code := by
  cases x <;> decide

theorem indexed_of_idles (x : Index) {b : Byte} (h : Idles b) (b₂ b₃ : Byte) :
    indexed x b b₂ b₃ = ⟨.nop, 1, false⟩ := by
  obtain rfl | rfl | rfl := h <;> rfl

/-- No instruction behind DD or FD names R. -/
theorem namesR_indexed (x : Index) (b₁ b₂ b₃ : Byte) :
    (indexed x b₁ b₂ b₃).instr.namesR = false := by
  have hpage : (Encoding.behindIndex x b₁ b₂ b₃).page ≠ .ed := by
    unfold Encoding.behindIndex
    split
    · simp
    · split <;> simp
  rw [indexed_eq_decode, Page.decode_eq_withBytes, Instr.namesR_withBytes]
  exact Bool.eq_false_iff.mpr fun hnames => hpage (Page.eq_ed_of_namesR _ _ hnames)

theorem ne_cb_of_unaffected {b : Byte} (h : indexAffects b = false) : b ≠ 0xCB := by
  rintro rfl
  cases h

/-- A prefix that does not change the instruction of an opcode makes it one byte longer. -/
theorem indexed_of_unaffected (x : Index) {b : Byte} (haffects : indexAffects b = false)
    (hidle : ¬Idles b) (b₂ b₃ b₄ : Byte) :
    indexed x b b₂ b₃ =
        { decode b b₂ b₃ b₄ with size := 1 + (decode b b₂ b₃ b₄).size, prefixed := true } ∧
      (decode b b₂ b₃ b₄).prefixed = false := by
  have hcb : b ≠ 0xCB := ne_cb_of_unaffected haffects
  rw [indexed_eq_decode, decode_eq_decode, Encoding.ofBytes_main ⟨hcb, hidle⟩,
    Encoding.behindIndex, if_neg hidle, if_neg hcb]
  simp only [Page.decode, haffects, Bool.false_eq_true, if_false, ← Nat.add_assoc]
  exact ⟨trivial, trivial⟩

end Decode

namespace Machine

/-! ## One prefix -/

/-- The machine that has passed over `n` prefixes, in a step of four T-states each: the
    program counter is behind them and R has counted them. -/
def passed (m : Machine) (n : Nat) : Machine :=
  { (m.setPc (m.pc + n.toUInt16)).refreshed n with cycles := if n = 0 then m.cycles else 4 }

variable {m : Machine} {x : Index}

theorem pc_add (m : Machine) (i j : Nat) :
    m.pc + (i + j).toUInt16 = m.pc + i.toUInt16 + j.toUInt16 := by
  rw [UInt16.add_assoc]
  congr 1
  exact UInt16.ofNat_add i j

theorem current_passed (m : Machine) (n : Nat) :
    (m.passed n).current =
      decode (m.mem.get (m.pc + n.toUInt16)) (m.mem.get (m.pc + (n + 1).toUInt16))
        (m.mem.get (m.pc + (n + 2).toUInt16)) (m.mem.get (m.pc + (n + 3).toUInt16)) := by
  rw [pc_add m n 1, pc_add m n 2, pc_add m n 3]
  rfl

theorem passed_zero (m : Machine) : m.passed 0 = m := by
  have hpc : m.regs.pc + (0 : Nat).toUInt16 = m.regs.pc := UInt16.add_zero _
  show { m with regs.pc := m.regs.pc + (0 : Nat).toUInt16 } = m
  rw [hpc]

theorem passed_one (m : Machine) (n : Nat) : (m.passed n).passed 1 = m.passed (n + 1) := by
  have hpc : m.regs.pc + n.toUInt16 + (1 : Nat).toUInt16 = m.regs.pc + (n + 1).toUInt16 :=
    (m.pc_add n 1).symm
  have hr : Registers.refreshed^[1] (Registers.refreshed^[n] m.regs.r) =
      Registers.refreshed^[n + 1] m.regs.r := by
    rw [← Function.iterate_add_apply, Nat.add_comm]
  simp only [passed, refreshed, withR, setPc, pc, hpc, hr, Nat.succ_ne_zero, if_false]

/-- A prefix in front of a prefix or of ED takes a step of its own. -/
theorem tryStep_passed_one (hrunning : m.halted = false) (hcode : m.mem.get m.pc = x.code)
    (hidle : Decode.Idles (m.mem.get (m.pc + 1))) : m.tryStep = (m.passed 1, .ok 4) := by
  have hcurrent : m.current = ⟨.nop, 1, false⟩ := by
    rw [current, hcode, decode_code, Decode.indexed_of_idles x hidle]
  rw [tryStep, fault?, step_of_running hrunning, hrunning, hcurrent]
  rfl

/-- An instruction with a prefix more takes four T-states more when the prefix has been
    fetched. -/
theorem execute_lengthened (m : Machine) {d : Decoded} (hd : d.prefixed = false) :
    m.execute { d with size := 1 + d.size, prefixed := true } =
      { m.behindPrefix.execute d with cycles := (m.behindPrefix.execute d).cycles + 4 } := by
  have hfetch : m.fetch { d with size := 1 + d.size, prefixed := true } = m.behindPrefix.fetch d :=
    fetch_behindPrefix rfl rfl hd
  have htime : fetchTime d = 4 := by rw [fetchTime, hd]; rfl
  rw [execute, hfetch, execute, htime, Nat.add_right_comm 4]
  rfl

/-- A prefix that does not change the instruction of the opcode behind it costs an opcode
    fetch, of one refresh and four T-states. -/
theorem tryStep_unaffected (hrunning : m.halted = false) (hcode : m.mem.get m.pc = x.code)
    (haffects : Decode.indexAffects (m.mem.get (m.pc + 1)) = false)
    (hidle : ¬Decode.Idles (m.mem.get (m.pc + 1))) :
    let alone := m.setPc (m.pc + 1)
    m.tryStep = ({ alone.step.refreshed 1 with cycles := alone.step.cycles + 4 },
      .ok (alone.step.cycles + 4)) := by
  intro alone
  have htwo : m.pc + 1 + 1 = m.pc + 2 := UInt16.add_assoc _ _ _
  have hthree : m.pc + 1 + 2 = m.pc + 3 := UInt16.add_assoc _ _ _
  have halone : alone.current = decode (m.mem.get (m.pc + 1)) (m.mem.get (m.pc + 2))
      (m.mem.get (m.pc + 3)) (m.mem.get (m.pc + 1 + 3)) := by
    rw [← htwo, ← hthree]
    rfl
  obtain ⟨hindexed, hprefixed⟩ := Decode.indexed_of_unaffected x haffects hidle
    (m.mem.get (m.pc + 2)) (m.mem.get (m.pc + 3)) (m.mem.get (m.pc + 1 + 3))
  rw [← halone] at hindexed hprefixed
  have hcurrent : m.current =
      { alone.current with size := 1 + alone.current.size, prefixed := true } := by
    rw [current, hcode, decode_code, hindexed]
  have hnames : alone.current.instr.namesR = false := by
    have h := Decode.namesR_indexed x (m.mem.get (m.pc + 1)) (m.mem.get (m.pc + 2))
      (m.mem.get (m.pc + 3))
    rwa [hindexed] at h
  -- the prefix has been fetched by a machine that R has counted it in
  have hbehind : m.behindPrefix = alone.refreshed 1 := rfl
  have hrunning' : alone.halted = false := hrunning
  have hstep : m.step = { alone.step.refreshed 1 with cycles := alone.step.cycles + 4 } := by
    rw [step_of_running hrunning, hcurrent, execute_lengthened m hprefixed, hbehind,
      execute_refreshed _ hnames, step_of_running hrunning']
    rfl
  have hlacking : m.lacking? = none := by
    have hcb := Decode.ne_cb_of_unaffected haffects
    rw [lacking?, hcode]
    cases x <;> simp [Opcode.ofBytes?, Index.code, hcb]
  rw [tryStep, fault?_eq, hlacking, hrunning, hstep]
  rfl

/-! ## Runs of prefixes -/

/-- There are `n` prefixes from the program counter on, and behind them no further one. -/
structure PrefixRun (m : Machine) (n : Nat) : Prop where
  prefixes : ∀ i < n, ∃ x : Index, m.mem.get (m.pc + i.toUInt16) = x.code
  stop : ∀ x : Index, m.mem.get (m.pc + n.toUInt16) ≠ x.code

/-- The first `n` steps are passed over: each of them takes four T-states and moves the
    program counter by one, and R counts it. -/
def PassesOver (m : Machine) (n : Nat) : Prop :=
  steps n m = m.passed n ∧ ∀ k < n, (steps k m).tryStep = (m.passed (k + 1), .ok 4)

theorem tryStep_passed (hrunning : m.halted = false) {k : Nat}
    (hcode : m.mem.get (m.pc + k.toUInt16) = x.code)
    (hidle : Decode.Idles (m.mem.get (m.pc + (k + 1).toUInt16))) :
    (m.passed k).tryStep = (m.passed (k + 1), .ok 4) := by
  have hrunning' : (m.passed k).halted = false := hrunning
  rw [pc_add] at hidle
  rw [tryStep_passed_one (x := x) hrunning' hcode hidle, passed_one]

/-- Prefixes are passed over as long as a prefix or ED is behind them. -/
theorem passesOver (hrunning : m.halted = false) {n : Nat}
    (hcode : ∀ k < n, ∃ x : Index, m.mem.get (m.pc + k.toUInt16) = x.code)
    (hidle : ∀ k < n, Decode.Idles (m.mem.get (m.pc + (k + 1).toUInt16))) :
    m.PassesOver n := by
  have htry : ∀ k < n, (m.passed k).tryStep = (m.passed (k + 1), .ok 4) := by
    intro k hk
    obtain ⟨x, hx⟩ := hcode k hk
    exact tryStep_passed hrunning hx (hidle k hk)
  have hsteps : ∀ k ≤ n, steps k m = m.passed k := by
    intro k
    induction k with
    | zero => exact fun _ => m.passed_zero.symm
    | succ k ih =>
      intro hk
      rw [steps_succ', ih (Nat.le_of_succ_le hk)]
      exact congrArg Prod.fst (htry k hk)
  refine ⟨hsteps n (Nat.le_refl n), fun k hk => ?_⟩
  rw [hsteps k (Nat.le_of_lt hk)]
  exact htry k hk

/-- Prefixes passed over leave no trace but in R and the program counter, unless the
    instruction behind them names R. -/
theorem tryStep_passed_of_namesR (hrunning : m.halted = false) (n : Nat) :
    let bare := m.setPc (m.pc + n.toUInt16)
    bare.current.instr.namesR = false →
      (m.passed n).tryStep = (bare.step.refreshed n, bare.tryStep.2) := by
  intro bare hnames
  have hrunning' : bare.halted = false := hrunning
  rw [passed, tryStep_withCycles]
  exact tryStep_refreshed hrunning' hnames n

/-- Of prefixes one behind the other all but the last are passed over. -/
theorem passesOver_of_code (hrunning : m.halted = false) {n : Nat}
    (h : ∀ k ≤ n, ∃ x : Index, m.mem.get (m.pc + k.toUInt16) = x.code) : m.PassesOver n := by
  refine passesOver hrunning (fun k hk => h k (Nat.le_of_lt hk)) fun k hk => ?_
  obtain ⟨x, hx⟩ := h (k + 1) hk
  rw [hx]
  exact Decode.idles_code x

/-- In front of ED the last one is passed over too. -/
theorem PrefixRun.passesOver_of_ed (hrunning : m.halted = false) {n : Nat} (hrun : m.PrefixRun n)
    (hed : m.mem.get (m.pc + n.toUInt16) = 0xED) : m.PassesOver n := by
  refine passesOver hrunning hrun.prefixes fun k hk => ?_
  obtain hlt | heq := Nat.lt_or_eq_of_le (Nat.succ_le_of_lt hk)
  · obtain ⟨x, hx⟩ := hrun.prefixes (k + 1) hlt
    rw [hx]
    exact Decode.idles_code x
  · rw [show k + 1 = n from heq, hed]
    exact .inr (.inr rfl)

theorem PrefixRun.not_idles {n : Nat} (hrun : m.PrefixRun n)
    (hed : m.mem.get (m.pc + n.toUInt16) ≠ 0xED) :
    ¬Decode.Idles (m.mem.get (m.pc + n.toUInt16)) := by
  rintro (hdd | hfd | hidle)
  · exact hrun.stop .ix hdd
  · exact hrun.stop .iy hfd
  · exact hed hidle

/-- What stands behind ED is executed when the prefixes have been passed over. -/
theorem PrefixRun.steps_of_ed (hrunning : m.halted = false) {n : Nat} (hrun : m.PrefixRun n)
    (hed : m.mem.get (m.pc + n.toUInt16) = 0xED) :
    steps (n + 1) m = (m.passed n).execute (decode 0xED (m.mem.get (m.pc + (n + 1).toUInt16))
      (m.mem.get (m.pc + (n + 2).toUInt16)) (m.mem.get (m.pc + (n + 3).toUInt16))) := by
  have hrunning' : (m.passed n).halted = false := hrunning
  rw [steps_succ', (hrun.passesOver_of_ed hrunning hed).1, step_of_running hrunning',
    current_passed, hed]

theorem current_passed_of_code {n : Nat} (hcode : m.mem.get (m.pc + n.toUInt16) = x.code) :
    (m.passed n).current =
      Decode.indexed x (m.mem.get (m.pc + (n + 1).toUInt16))
        (m.mem.get (m.pc + (n + 2).toUInt16)) (m.mem.get (m.pc + (n + 3).toUInt16)) := by
  rw [current_passed, hcode, decode_code]

/-- What stands behind the last prefix is executed as if it were the only one. -/
theorem tryStep_passed_of_code (hrunning : m.halted = false) {n : Nat}
    (hcode : m.mem.get (m.pc + n.toUInt16) = x.code) :
    let single := m.setPc (m.pc + n.toUInt16)
    (m.passed n).tryStep = (single.step.refreshed n, single.tryStep.2) := by
  apply tryStep_passed_of_namesR hrunning
  show (m.passed n).current.instr.namesR = false
  rw [current_passed_of_code hcode]
  exact Decode.namesR_indexed _ _ _ _

/-- What stands behind the last prefix is executed as if there were none, if no prefix
    changes it. -/
theorem tryStep_passed_of_unaffected (hrunning : m.halted = false) {n : Nat}
    (hcode : m.mem.get (m.pc + n.toUInt16) = x.code)
    (haffects : Decode.indexAffects (m.mem.get (m.pc + (n + 1).toUInt16)) = false)
    (hidle : ¬Decode.Idles (m.mem.get (m.pc + (n + 1).toUInt16))) :
    let alone := (m.passed n).setPc (m.pc + (n + 1).toUInt16)
    (m.passed n).tryStep = ({ alone.step.refreshed 1 with cycles := alone.step.cycles + 4 },
      .ok (alone.step.cycles + 4)) := by
  have hrunning' : (m.passed n).halted = false := hrunning
  rw [pc_add] at haffects hidle ⊢
  exact tryStep_unaffected (x := x) hrunning' hcode haffects hidle

/-- A run of prefixes, of any length and anywhere in memory.  In front of ED all of them are
    passed over, and the instruction behind ED is executed where it stands.  In front of
    another byte all but the last one `x` are passed over, and the instruction is the one
    behind `x` alone; if `x` does not change it, it is the one without a prefix, but for one
    refresh and four T-states.  A step decodes at most one prefix, so every step comes to an
    end in a memory full of prefixes too: it passes over one of them. -/
theorem passesOver_prefixRun {m : Machine} (hrunning : m.halted = false) :
    (∀ n, 0 < n → m.PrefixRun n →
      let b := m.mem.get (m.pc + n.toUInt16)
      let b₂ := m.mem.get (m.pc + (n + 1).toUInt16)
      let b₃ := m.mem.get (m.pc + (n + 2).toUInt16)
      let b₄ := m.mem.get (m.pc + (n + 3).toUInt16)
      (b = 0xED → m.PassesOver n ∧
        steps (n + 1) m = (m.passed n).execute (decode 0xED b₂ b₃ b₄) ∧
        let bare := m.setPc (m.pc + n.toUInt16)
        (bare.current.instr.namesR = false →
          (steps n m).tryStep = (bare.step.refreshed n, bare.tryStep.2))) ∧
      (b ≠ 0xED → m.PassesOver (n - 1) ∧
        ∀ x : Index, m.mem.get (m.pc + (n - 1).toUInt16) = x.code →
          steps n m = (m.passed (n - 1)).execute (Decode.indexed x b b₂ b₃) ∧
          (let single := m.setPc (m.pc + (n - 1).toUInt16)
          (steps (n - 1) m).tryStep = (single.step.refreshed (n - 1), single.tryStep.2)) ∧
          (Decode.indexAffects b = false →
            let alone := (steps (n - 1) m).setPc (m.pc + n.toUInt16)
            (steps (n - 1) m).tryStep =
              ({ alone.step.refreshed 1 with cycles := alone.step.cycles + 4 },
                .ok (alone.step.cycles + 4))))) ∧
    (∀ x y : Index, m.mem.get m.pc = x.code → m.mem.get (m.pc + 1) = y.code →
      m.tryStep = (m.passed 1, .ok 4)) ∧
    ((∀ a, ∃ x : Index, m.mem.get a = x.code) → ∀ k, m.PassesOver k) := by
  refine ⟨?_, ?_, ?_⟩
  · intro n hn hrun b b₂ b₃ b₄
    refine ⟨fun hed => ?_, fun hed => ?_⟩
    · have hpass : m.PassesOver n := hrun.passesOver_of_ed hrunning hed
      refine ⟨hpass, hrun.steps_of_ed hrunning hed, ?_⟩
      rw [hpass.1]
      exact tryStep_passed_of_namesR hrunning n
    · obtain ⟨k, rfl⟩ : ∃ k, n = k + 1 := Nat.exists_eq_add_one.mpr hn
      have hpass : m.PassesOver k :=
        passesOver_of_code hrunning fun i hi => hrun.prefixes i (Nat.lt_succ_of_le hi)
      have hrunning' : (m.passed k).halted = false := hrunning
      rw [Nat.add_sub_cancel, hpass.1]
      refine ⟨hpass, fun x hx => ⟨?_, ?_, fun haffects => ?_⟩⟩
      · rw [steps_succ', hpass.1, step_of_running hrunning', current_passed_of_code hx]
      · exact tryStep_passed_of_code hrunning hx
      · exact tryStep_passed_of_unaffected hrunning hx haffects (hrun.not_idles hed)
  · intro x y hx hy
    exact tryStep_passed_one hrunning hx (hy ▸ Decode.idles_code y)
  · intro h k
    exact passesOver_of_code hrunning fun i _ => h _

/-- LD IY,1234H behind a DD that comes to nothing, and NEG behind such an FD. -/
theorem passesOver_prefixRun_atCode :
    let load := atCode 0xFFFE [0xDD, 0xFD, 0x21, 0x34, 0x12]
    let neg := atCode 0xFFFF [0xFD, 0xED, 0x44]
    load.halted = false ∧ load.PrefixRun 2 ∧ load.PassesOver 1 ∧
      (steps 2 load).regs.iy = 0x1234 ∧ (steps 2 load).regs.ix = load.regs.ix ∧
      neg.halted = false ∧ neg.PrefixRun 1 ∧ neg.PassesOver 1 ∧ (steps 2 neg).a = 0x01 := by
  intro load neg
  have hload : load.PrefixRun 2 := by
    refine ⟨fun i hi => ?_, fun x => ?_⟩
    · obtain rfl | rfl : i = 0 ∨ i = 1 := by omega
      · exact ⟨.ix, by simp [load, atCode, pc, Space.load, Space.get_set, Index.code]⟩
      · exact ⟨.iy, by simp [load, atCode, pc, Space.load, Space.get_set, Index.code]⟩
    · cases x <;> simp [load, atCode, pc, Space.load, Space.get_set, Index.code]
  have hneg : neg.PrefixRun 1 := by
    refine ⟨fun i hi => ?_, fun x => ?_⟩
    · obtain rfl : i = 0 := by omega
      exact ⟨.iy, by simp [neg, atCode, pc, Space.load, Space.get_set, Index.code]⟩
    · cases x <;> simp [neg, atCode, pc, Space.load, Space.get_set, Index.code]
  obtain ⟨-, hother⟩ := (passesOver_prefixRun (m := load) rfl).1 2 (by decide) hload
  obtain ⟨hed, -⟩ := (passesOver_prefixRun (m := neg) rfl).1 1 (by decide) hneg
  obtain ⟨hpass, hlast⟩ := hother
    (by simp [load, atCode, pc, Space.load, Space.get_set])
  obtain ⟨hsteps, -⟩ := hlast .iy
    (by simp [load, atCode, pc, Space.load, Space.get_set, Index.code])
  obtain ⟨hpass', hsteps', -⟩ := hed
    (by simp [neg, atCode, pc, Space.load, Space.get_set])
  have hdecoded : Decode.indexed .iy (load.mem.get (load.pc + (2 : Nat).toUInt16))
      (load.mem.get (load.pc + (3 : Nat).toUInt16))
      (load.mem.get (load.pc + (4 : Nat).toUInt16)) = ⟨.ldWord (.index .iy) 0x1234, 4, true⟩ := by
    simp [load, atCode, pc, Space.load, Space.get_set]
    decide
  have hdecoded' : decode 0xED (neg.mem.get (neg.pc + (2 : Nat).toUInt16))
      (neg.mem.get (neg.pc + (3 : Nat).toUInt16)) (neg.mem.get (neg.pc + (4 : Nat).toUInt16)) =
      ⟨.neg, 2, true⟩ := by
    simp [neg, atCode, pc, Space.load, Space.get_set]
    decide
  refine ⟨rfl, hload, hpass, ?_, ?_, rfl, hneg, hpass', ?_⟩
  · rw [hsteps, hdecoded]
    rfl
  · rw [hsteps, hdecoded]
    rfl
  · rw [hsteps', hdecoded']
    show subByte 0 0xFF false = 0x01
    decide

end Machine

end Z80
