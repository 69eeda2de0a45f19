/-
  Z80.Proofs.Numerals

  Which numerals are read, and why others are refused.

  A numeral is at most one plus sign and at least one digit of its radix (`Denotes`).  One
  that denotes a number below the bound is read as that number (`read_eq_ok_iff`).  Any
  other text is refused for the first character with which the characters so far are no
  such digits any more (`read_eq_error_iff`).  There is only one such character, because
  digits in front of other digits denote no larger a number (`Fits.of_append`).
-/

import Mathlib.Data.List.Forall2
import Mathlib.Data.List.Induction
import Mathlib.Data.Nat.Digits.Defs
import Z80.Text.Numeral

namespace Z80.Numeral

/-! ## Digits and the numbers they denote -/

/-- The character is the digit of a value in a radix, in either case. -/
def DigitOf (radix : Nat) (c : Char) (d : Nat) : Prop :=
  d < radix ∧ (c = d.digitChar ∨ c = d.digitChar.toUpper)

/-- The characters are digits of a radix, if any, and denote a number. -/
def Digits (radix : Nat) (cs : List Char) (n : Nat) : Prop :=
  ∃ ds, List.Forall₂ (DigitOf radix) cs.reverse ds ∧ n = Nat.ofDigits radix ds

/-- The text is at most one plus sign and at least one digit of a radix, which denote a
    number. -/
def Denotes (radix : Nat) (w : List Char) (n : Nat) : Prop :=
  ∃ cs, (w = cs ∨ w = '+' :: cs) ∧ cs ≠ [] ∧ Digits radix cs n

/-- The characters are digits of a number below a bound. -/
def Fits (radix bound : Nat) (cs : List Char) : Prop :=
  ∃ n < bound, Digits radix cs n

/-- What is wrong with a text without a sign at the first character that does not fit: it is
    no digit of the radix, or a digit with which the number leaves the bound. -/
inductive Faulty (radix bound : Nat) : List Char → NumeralError → Prop where
  | invalidDigit {cs rest : List Char} {c : Char} (hfits : Fits radix bound cs)
      (hc : ∀ d, ¬DigitOf radix c d) : Faulty radix bound (cs ++ c :: rest) .invalidDigit
  | tooLarge {cs rest : List Char} {c : Char} {n : Nat} (hfits : Fits radix bound cs)
      (hn : Digits radix (cs ++ [c]) n) (hbound : bound ≤ n) :
      Faulty radix bound (cs ++ c :: rest) .tooLarge

/-- A text without the plus sign in front, unless the sign is all of it. -/
def unsigned : List Char → List Char
  | '+' :: c :: cs => c :: cs
  | cs => cs

/-- Why a text is no numeral below a bound: it is empty, or faulty behind its sign. -/
inductive Refused (radix bound : Nat) : List Char → NumeralError → Prop where
  | empty : Refused radix bound [] .empty
  | faulty {w : List Char} {reason : NumeralError} (hw : w ≠ [])
      (h : Faulty radix bound (unsigned w) reason) : Refused radix bound w reason

variable {radix bound : Nat} {c : Char} {d e n m : Nat} {cs ds w : List Char}
  {reason reason' : NumeralError}

/-! ## Single digits -/

theorem toNat_lt_of_value? (h : Hex.value? c = some d) : c.toNat < 128 := by
  have hle {x : Char} (hc : c ≤ x) : c.toNat ≤ x.toNat := hc
  unfold Hex.value? at h
  split at h
  next hc => exact Nat.lt_of_le_of_lt (hle hc.2) (by decide)
  next =>
    split at h
    next hc => exact Nat.lt_of_le_of_lt (hle hc.2) (by decide)
    next =>
      split at h
      next hc => exact Nat.lt_of_le_of_lt (hle hc.2) (by decide)
      next => cases h

theorem value?_eq_some_iff : Hex.value? c = some d ↔ DigitOf 16 c d := by
  constructor
  · intro h
    have hall : ∀ k < 128, ∀ v ∈ Hex.value? (Char.ofNat k), v < 16 ∧
        (Char.ofNat k = v.digitChar ∨ Char.ofNat k = v.digitChar.toUpper) := by
      decide +kernel
    have hc := hall c.toNat (toNat_lt_of_value? h)
    rw [Char.ofNat_toNat] at hc
    exact hc d h
  · rintro ⟨hd, hc⟩
    have hall : ∀ v < 16, Hex.value? v.digitChar = some v ∧
        Hex.value? v.digitChar.toUpper = some v := by decide
    obtain rfl | rfl := hc
    · exact (hall d hd).1
    · exact (hall d hd).2

theorem digit?_eq_some_iff (hradix : radix ≤ 16) :
    digit? radix c = some d ↔ DigitOf radix c d := by
  rw [digit?, Option.filter_eq_some_iff, value?_eq_some_iff, decide_eq_true_eq]
  constructor
  · rintro ⟨⟨-, hc⟩, hd⟩
    exact ⟨hd, hc⟩
  · rintro ⟨hd, hc⟩
    exact ⟨⟨Nat.lt_of_lt_of_le hd hradix, hc⟩, hd⟩

theorem digit?_eq_none (hradix : radix ≤ 16) (h : digit? radix c = none) (d : Nat) :
    ¬DigitOf radix c d := by
  intro hd
  rw [(digit?_eq_some_iff hradix).mpr hd] at h
  cases h

theorem DigitOf.unique (hradix : radix ≤ 16) (hd : DigitOf radix c d) (he : DigitOf radix c e) :
    d = e := by
  rw [← digit?_eq_some_iff hradix] at hd he
  exact Option.some.inj (hd.symm.trans he)

theorem not_digitOf_plus (hradix : radix ≤ 16) (d : Nat) : ¬DigitOf radix '+' d :=
  digit?_eq_none hradix rfl d

/-! ## Digits one by one -/

theorem digits_nil : Digits radix [] n ↔ n = 0 := by
  simp [Digits]

/-- A digit more multiplies the number by the radix and adds the value of the digit. -/
theorem digits_snoc :
    Digits radix (cs ++ [c]) n ↔
      ∃ m d, Digits radix cs m ∧ DigitOf radix c d ∧ n = m * radix + d := by
  simp only [Digits, List.reverse_append, List.reverse_singleton, List.singleton_append]
  constructor
  · rintro ⟨values, hvalues, rfl⟩
    obtain ⟨d, values, hc, hcs, rfl⟩ := List.forall₂_cons_left_iff.mp hvalues
    refine ⟨_, d, ⟨values, hcs, rfl⟩, hc, ?_⟩
    rw [Nat.ofDigits_cons, Nat.add_comm, Nat.mul_comm]
  · rintro ⟨m, d, ⟨values, hcs, rfl⟩, hc, rfl⟩
    refine ⟨d :: values, .cons hc hcs, ?_⟩
    rw [Nat.ofDigits_cons, Nat.add_comm, Nat.mul_comm]

theorem Digits.unique (hradix : radix ≤ 16) (hn : Digits radix cs n) (hm : Digits radix cs m) :
    n = m := by
  -- from behind, because `digits_snoc` takes off the last digit
  induction cs using List.reverseRecOn generalizing n m with
  | nil => rw [digits_nil.mp hn, digits_nil.mp hm]
  | append_singleton cs c ih =>
    obtain ⟨k, d, hk, hd, rfl⟩ := digits_snoc.mp hn
    obtain ⟨l, e, hl, he, rfl⟩ := digits_snoc.mp hm
    rw [ih hk hl, hd.unique hradix he]

/-- Digits in front of other digits denote no larger a number. -/
theorem Digits.of_append (h : Digits radix (cs ++ ds) n) : ∃ m ≤ n, Digits radix cs m := by
  induction ds using List.reverseRecOn generalizing n with
  | nil =>
    rw [List.append_nil] at h
    exact ⟨n, Nat.le_refl n, h⟩
  | append_singleton ds c ih =>
    rw [← List.append_assoc] at h
    obtain ⟨k, d, hk, hd, rfl⟩ := digits_snoc.mp h
    obtain ⟨m, hm, hcs⟩ := ih hk
    have hpos : 1 ≤ radix := Nat.lt_of_le_of_lt (Nat.zero_le d) hd.1
    refine ⟨m, ?_, hcs⟩
    calc m ≤ k * 1 := by omega
      _ ≤ k * radix := Nat.mul_le_mul_left k hpos
      _ ≤ k * radix + d := Nat.le_add_right ..

theorem Fits.of_append (h : Fits radix bound (cs ++ ds)) : Fits radix bound cs := by
  obtain ⟨n, hn, hdigits⟩ := h
  obtain ⟨m, hm, hcs⟩ := hdigits.of_append
  exact ⟨m, Nat.lt_of_le_of_lt hm hn, hcs⟩

/-! ## The first fault -/

/-- A faulty text has a character that fits no more, behind characters that fit. -/
theorem Faulty.exists_not_fits (hradix : radix ≤ 16) (h : Faulty radix bound w reason) :
    ∃ cs c rest, w = cs ++ c :: rest ∧ Fits radix bound cs ∧ ¬Fits radix bound (cs ++ [c]) ∧
      (reason = .invalidDigit ↔ ∀ d, ¬DigitOf radix c d) ∧
      (reason = .invalidDigit ∨ reason = .tooLarge) := by
  cases h with
  | @invalidDigit cs rest c hfits hc =>
    refine ⟨cs, c, rest, rfl, hfits, ?_, ⟨fun _ => hc, fun _ => rfl⟩, .inl rfl⟩
    rintro ⟨n, -, hn⟩
    obtain ⟨m, d, -, hd, -⟩ := digits_snoc.mp hn
    exact hc d hd
  | @tooLarge cs rest c n hfits hn hbound =>
    obtain ⟨m, d, -, hd, -⟩ := digits_snoc.mp hn
    have hdigit : ¬∀ d, ¬DigitOf radix c d := fun h => h d hd
    refine ⟨cs, c, rest, rfl, hfits, ?_, iff_of_false (by decide) hdigit, .inr rfl⟩
    rintro ⟨k, hk, hdigits⟩
    rw [hn.unique hradix hdigits] at hbound
    exact absurd hk (Nat.not_lt.mpr hbound)

theorem Faulty.not_fits (hradix : radix ≤ 16) (h : Faulty radix bound w reason) :
    ¬Fits radix bound w := by
  obtain ⟨cs, c, rest, rfl, -, hnot, -⟩ := h.exists_not_fits hradix
  intro hfits
  rw [List.append_cons] at hfits
  exact hnot hfits.of_append

/-- Of two first characters that do not fit none is in front of the other. -/
theorem eq_of_first_not_fits {cs' rest rest' : List Char} {c' : Char}
    (h : cs ++ c :: rest = cs' ++ c' :: rest') (hfits : Fits radix bound cs)
    (hnot : ¬Fits radix bound (cs ++ [c])) (hfits' : Fits radix bound cs')
    (hnot' : ¬Fits radix bound (cs' ++ [c'])) : c = c' := by
  obtain ⟨between, hcs', hbehind⟩ | ⟨between, hcs, hbehind⟩ := List.append_eq_append_iff.mp h
  · cases between with
    | nil => exact (List.cons.inj hbehind).1
    | cons b between =>
      obtain ⟨rfl, -⟩ := List.cons.inj hbehind
      rw [hcs', List.append_cons] at hfits'
      exact absurd hfits'.of_append hnot
  · cases between with
    | nil => exact (List.cons.inj hbehind).1.symm
    | cons b between =>
      obtain ⟨rfl, -⟩ := List.cons.inj hbehind
      rw [hcs, List.append_cons] at hfits
      exact absurd hfits.of_append hnot'

theorem Faulty.unique (hradix : radix ≤ 16) (h : Faulty radix bound w reason)
    (h' : Faulty radix bound w reason') : reason = reason' := by
  obtain ⟨cs, c, rest, rfl, hfits, hnot, hreason, hr⟩ := h.exists_not_fits hradix
  obtain ⟨cs', c', rest', hw, hfits', hnot', hreason', hr'⟩ := h'.exists_not_fits hradix
  rw [← eq_of_first_not_fits hw hfits hnot hfits' hnot', ← hreason] at hreason'
  obtain rfl | rfl := hr <;> obtain rfl | rfl := hr' <;> simp at hreason' ⊢

/-! ## Reading digits -/

/-- Behind digits that fit, reading goes on to the end of the text or to the first
    character at fault. -/
theorem readDigits_sound (hradix : radix ≤ 16) (hvalue : n < bound)
    (hbefore : Digits radix cs n) (ds : List Char) :
    match readDigits radix bound n ds with
    | .ok m => m < bound ∧ Digits radix (cs ++ ds) m
    | .error reason => Faulty radix bound (cs ++ ds) reason := by
  -- what has been read moves from `ds` to `cs`, and `n` is the number of it
  induction ds generalizing cs n with
  | nil =>
    rw [List.append_nil]
    exact ⟨hvalue, hbefore⟩
  | cons c ds ih =>
    rw [readDigits]
    cases hdigit : digit? radix c with
    | none => exact .invalidDigit ⟨n, hvalue, hbefore⟩ (digit?_eq_none hradix hdigit)
    | some d =>
      have hafter : Digits radix (cs ++ [c]) (n * radix + d) :=
        digits_snoc.mpr ⟨n, d, hbefore, (digit?_eq_some_iff hradix).mp hdigit, rfl⟩
      by_cases hlt : n * radix + d < bound
      · simp only [hlt, if_true]
        rw [List.append_cons]
        exact ih hlt hafter
      · simp only [hlt, if_false]
        exact .tooLarge ⟨n, hvalue, hbefore⟩ hafter (Nat.le_of_not_lt hlt)

/-! ## Signs -/

theorem unsigned_of_ne_plus (h : c ≠ '+') : unsigned (c :: cs) = c :: cs := by
  unfold unsigned
  split
  next heq => exact absurd (List.cons.inj heq).1 h
  next => rfl

/-- A text denotes what is denoted behind its sign. -/
theorem denotes_iff (hradix : radix ≤ 16) :
    Denotes radix w n ↔ w ≠ [] ∧ Digits radix (unsigned w) n := by
  constructor
  · rintro ⟨cs, hw, hne, hdigits⟩
    obtain ⟨c, cs, rfl⟩ := List.exists_cons_of_ne_nil hne
    obtain rfl | rfl := hw
    · -- no digit is a plus sign, so digits lose nothing in front
      have hc : c ≠ '+' := by
        rintro rfl
        rw [← List.singleton_append] at hdigits
        obtain ⟨m, -, hplus⟩ := hdigits.of_append
        rw [← List.nil_append ['+']] at hplus
        obtain ⟨-, d, -, hd, -⟩ := digits_snoc.mp hplus
        exact not_digitOf_plus hradix d hd
      rw [unsigned_of_ne_plus hc]
      exact ⟨hne, hdigits⟩
    · exact ⟨List.cons_ne_nil _ _, hdigits⟩
  · rintro ⟨hw, hdigits⟩
    unfold unsigned at hdigits
    split at hdigits
    next c cs => exact ⟨c :: cs, .inr rfl, List.cons_ne_nil _ _, hdigits⟩
    next => exact ⟨w, .inl rfl, hw, hdigits⟩

theorem read_eq_readDigits (hradix : radix ≤ 16) (hw : w ≠ []) :
    read radix bound w = readDigits radix bound 0 (unsigned w) := by
  have hplus : digit? radix '+' = none := by
    cases h : digit? radix '+' with
    | none => rfl
    | some d => exact absurd ((digit?_eq_some_iff hradix).mp h) (not_digitOf_plus hradix d)
  -- a lone sign is read as a digit, and is none
  match w, hw with
  | ['+'], _ => simp [read, unsigned, readDigits, hplus]
  | '+' :: c :: cs, _ => rfl
  | c :: cs, _ =>
    by_cases hc : c = '+'
    · subst hc
      cases cs with
      | nil => simp [read, unsigned, readDigits, hplus]
      | cons c cs => rfl
    · rw [unsigned_of_ne_plus hc, read]
      · exact fun h => nomatch h
      · exact fun h => hc (List.cons.inj h).1
      · exact fun _ h => hc (List.cons.inj h).1

/-! ## Reading numerals -/

/-- What is read is what is denoted and below the bound, and what is refused has a reason. -/
theorem read_sound (hradix : radix ≤ 16) (hbound : 0 < bound) (w : List Char) :
    match read radix bound w with
    | .ok n => n < bound ∧ Denotes radix w n
    | .error reason => Refused radix bound w reason := by
  by_cases hw : w = []
  · rw [hw]
    exact .empty
  · have hsound := readDigits_sound hradix hbound (digits_nil.mpr rfl) (unsigned w)
    rw [← read_eq_readDigits hradix hw, List.nil_append] at hsound
    cases hread : read radix bound w with
    | ok n =>
      rw [hread] at hsound
      exact ⟨hsound.1, (denotes_iff hradix).mpr ⟨hw, hsound.2⟩⟩
    | error reason =>
      rw [hread] at hsound
      exact .faulty hw hsound

theorem Refused.not_denotes (hradix : radix ≤ 16) (h : Refused radix bound w reason)
    (hn : n < bound) : ¬Denotes radix w n := by
  rw [denotes_iff hradix]
  rintro ⟨hw, hdigits⟩
  cases h with
  | empty => exact hw rfl
  | faulty _ h => exact h.not_fits hradix ⟨n, hn, hdigits⟩

theorem Refused.unique (hradix : radix ≤ 16) (h : Refused radix bound w reason)
    (h' : Refused radix bound w reason') : reason = reason' := by
  cases h with
  | empty =>
    cases h' with
    | empty => rfl
    | faulty hw => exact absurd rfl hw
  | faulty hw h =>
    cases h' with
    | empty => exact absurd rfl hw
    | faulty _ h' => exact h.unique hradix h'

/-- A text is read as a number exactly if it denotes it and the number is below the bound. -/
theorem read_eq_ok_iff (hradix : radix ≤ 16) (hbound : 0 < bound) :
    read radix bound w = .ok n ↔ n < bound ∧ Denotes radix w n := by
  have hsound := read_sound hradix hbound w
  constructor
  · intro h
    rwa [h] at hsound
  · rintro ⟨hn, hdenotes⟩
    cases hread : read radix bound w with
    | ok m =>
      rw [hread] at hsound
      rw [denotes_iff hradix] at hdenotes
      rw [((denotes_iff hradix).mp hsound.2).2.unique hradix hdenotes.2]
    | error reason =>
      rw [hread] at hsound
      exact absurd hdenotes (hsound.not_denotes hradix hn)

/-- A text is refused exactly for its first fault. -/
theorem read_eq_error_iff (hradix : radix ≤ 16) (hbound : 0 < bound) :
    read radix bound w = .error reason ↔ Refused radix bound w reason := by
  have hsound := read_sound hradix hbound w
  constructor
  · intro h
    rwa [h] at hsound
  · intro h
    cases hread : read radix bound w with
    | ok n =>
      rw [hread] at hsound
      exact absurd hsound.2 (h.not_denotes hradix hsound.1)
    | error reason' =>
      rw [hread] at hsound
      rw [hsound.unique hradix h]

end Z80.Numeral
