/-
  Z80.Proofs.Reports

  What is printed about a run.

  A run has left a machine behind, for a reason, after a number of steps with their T-states.
  `printedLines` writes the two lines out that say so, and `Reported` the report: these lines,
  or the state in the format of the program.  Every outcome is reported so (`reported_outcome`).

  The lines can be read again.  A register is a numeral of four digits and a count ends at the
  first blank, so lines that are the same have the same registers, reason and counts
  (`printedLines_inj`).
-/

import Z80.Program
import Z80.Proofs.HexNumerals

namespace Z80

/-- The registers of a machine, and why and when a run has left it. -/
def printedLines (final : Machine) (reason : StopReason) (steps cycles : UInt64) : String :=
  String.join
    ["PC=", Hex.upper 4 final.pc.toNat, " SP=", Hex.upper 4 final.regs.sp.toNat,
      " AF=", Hex.upper 4 (final.pair (.bank .af)).toNat,
      " BC=", Hex.upper 4 (final.pair (.bank .bc)).toNat,
      " DE=", Hex.upper 4 (final.pair (.bank .de)).toNat,
      " HL=", Hex.upper 4 (final.pair (.bank .hl)).toNat,
      " IX=", Hex.upper 4 final.regs.ix.toNat, " IY=", Hex.upper 4 final.regs.iy.toNat, "\n",
      reason.text, " after ", toString steps, " steps, ", toString cycles, " T-states\n"]

/-- The report of a run that has left a machine: the two lines, or else the state in the format
    of the program. -/
inductive Reported (formats : Formats) (final : Machine) (reason : StopReason)
    (steps cycles : UInt64) : Bool → Report → Prop where
  | lines : Reported formats final reason steps cycles false
      { exitCode := 0, output := printedLines final reason steps cycles, error := none }
  | state {text : String} (h : formats.state final.snapshot = .ok text) :
    Reported formats final reason steps cycles true
      { exitCode := 0, output := text ++ "\n", error := none }
  | unwritable {message : String} (h : formats.state final.snapshot = .error message) :
    Reported formats final reason steps cycles true
      { exitCode := 1
        output := ""
        error := some ("z80emu: failed to encode state: " ++ message) }

namespace Program

/-- The lines of the program are those. -/
theorem lines_eq_printedLines (o : Outcome) :
    registersText o.machine.snapshot ++ "\n" ++ endText o ++ "\n" =
      printedLines o.machine o.reason o.steps o.cycles := by
  have hwords : registersText o.machine.snapshot = " ".intercalate
      [registerText "PC" o.machine.pc, registerText "SP" o.machine.regs.sp,
        registerText "AF" (o.machine.pair (.bank .af)),
        registerText "BC" (o.machine.pair (.bank .bc)),
        registerText "DE" (o.machine.pair (.bank .de)),
        registerText "HL" (o.machine.pair (.bank .hl)),
        registerText "IX" o.machine.regs.ix, registerText "IY" o.machine.regs.iy] := rfl
  rw [hwords]
  apply String.toList_inj.mp
  simp [registerText, String.intercalate_cons_cons, endText, printedLines]

/-- What is reported about an outcome is its machine and its reason, with its steps and their
    T-states. -/
theorem reported_outcome (formats : Formats) (c : CommandLine) (o : Outcome) :
    Reported formats o.machine o.reason o.steps o.cycles c.dumpState
      (outcomeReport formats c o) := by
  unfold outcomeReport summary
  cases c.dumpState with
  | false =>
    rw [if_neg Bool.false_ne_true, lines_eq_printedLines]
    exact .lines
  | true =>
    rw [if_pos rfl]
    cases hstate : formats.state o.machine.snapshot with
    | ok text => exact .state hstate
    | error message => exact .unwritable hstate

end Program

/-! ## The lines read again -/

variable {front rest rest' : List Char}

/-- A register is told from what follows by its width. -/
theorem Hex.upper_append_inj {w w' : Word}
    (h : front ++ ((upper 4 w.toNat).toList ++ rest) =
      front ++ ((upper 4 w'.toNat).toList ++ rest')) : w = w' ∧ rest = rest' := by
  have hwidth (w : Word) : (upper 4 w.toNat).toList.length = 4 := by
    rw [String.length_toList, length_upper]
  obtain ⟨htext, hrest⟩ :=
    List.append_inj (List.append_cancel_left h) ((hwidth w).trans (hwidth w').symm)
  have hnumber := (upper_inj w.toNat_lt w'.toNat_lt).mp (String.toList_inj.mp htext)
  exact ⟨UInt16.toNat_inj.mp hnumber, hrest⟩

/-- A count is told from what follows by the blank behind it. -/
theorem toString_append_inj {n n' : UInt64}
    (h : front ++ ((toString n).toList ++ ' ' :: rest) =
      front ++ ((toString n').toList ++ ' ' :: rest')) : n = n' ∧ rest = rest' := by
  have htext (n : UInt64) : (toString n).toList = Nat.toDigits 10 n.toNat := Nat.toList_repr
  -- the digits are what stands in front of the first blank
  have htake (n : UInt64) (rest : List Char) :
      (Nat.toDigits 10 n.toNat ++ ' ' :: rest).takeWhile Char.isDigit =
        Nat.toDigits 10 n.toNat := by
    have hdigits : ∀ c ∈ Nat.toDigits 10 n.toNat, c.isDigit = true := fun c =>
      Nat.isDigit_of_mem_toDigits (by decide) (by decide)
    rw [List.takeWhile_append_of_pos hdigits, List.takeWhile_cons_of_neg (by decide),
      List.append_nil]
  replace h := List.append_cancel_left h
  rw [htext, htext] at h
  have hdigits : Nat.toDigits 10 n.toNat = Nat.toDigits 10 n'.toNat := by
    rw [← htake n rest, h, htake n' rest']
  have hnumber := congrArg (Nat.ofDigitChars 10 · 0) hdigits
  simp only [Nat.ofDigitChars_ten_toDigits] at hnumber
  rw [hdigits] at h
  exact ⟨UInt64.toNat_inj.mp hnumber, List.tail_eq_of_cons_eq (List.append_cancel_left h)⟩

/-- A reason is told by its name. -/
theorem StopReason.text_append_inj {reason reason' : StopReason}
    (h : front ++ (reason.text.toList ++ rest) = front ++ (reason'.text.toList ++ rest')) :
    reason = reason' ∧ rest = rest' := by
  replace h := List.append_cancel_left h
  cases reason <;> cases reason' <;> simp_all [text]

/-- Lines that are the same have the same registers, reason and counts. -/
theorem printedLines_inj {final final' : Machine} {reason reason' : StopReason}
    {steps steps' cycles cycles' : UInt64}
    (h : printedLines final reason steps cycles = printedLines final' reason' steps' cycles') :
    (final.pc = final'.pc ∧ final.regs.sp = final'.regs.sp ∧
      (∀ rr, final.pair (.bank rr) = final'.pair (.bank rr)) ∧
      final.regs.ix = final'.regs.ix ∧ final.regs.iy = final'.regs.iy) ∧
    reason = reason' ∧ steps = steps' ∧ cycles = cycles' := by
  -- the line is read from the left, one field after the other
  have hline := congrArg String.toList h
  simp only [printedLines, String.join_cons, String.toList_append] at hline
  obtain ⟨hpc, hline⟩ := Hex.upper_append_inj hline
  obtain ⟨hsp, hline⟩ := Hex.upper_append_inj hline
  obtain ⟨haf, hline⟩ := Hex.upper_append_inj hline
  obtain ⟨hbc, hline⟩ := Hex.upper_append_inj hline
  obtain ⟨hde, hline⟩ := Hex.upper_append_inj hline
  obtain ⟨hhl, hline⟩ := Hex.upper_append_inj hline
  obtain ⟨hix, hline⟩ := Hex.upper_append_inj hline
  obtain ⟨hiy, hline⟩ := Hex.upper_append_inj hline
  obtain ⟨hreason, hline⟩ := StopReason.text_append_inj hline
  obtain ⟨hsteps, hline⟩ := toString_append_inj hline
  obtain ⟨hcycles, -⟩ := toString_append_inj hline
  refine ⟨⟨hpc, hsp, fun rr => ?_, hix, hiy⟩, hreason, hsteps, hcycles⟩
  cases rr with
  | af => exact haf
  | bc => exact hbc
  | de => exact hde
  | hl => exact hhl

end Z80
