/-
  Z80.Proofs.AddressTexts

  Which texts are addresses.

  A text is read in three stages, each with a relation that says what it is to find: the text
  without the white space around it (`Trimmed`), one of three notations (`Address.Written`)
  and a numeral (`Numeral.Denotes`, or `Numeral.Refused` with the first fault).  Each stage
  finds one thing for every text, so the main statement `parse_grammar` decides them all.
-/

import Mathlib.Data.List.TakeWhile
import Z80.Address
import Z80.Proofs.Numerals
import Z80.Proofs.QuotedTexts

namespace Z80

/-! ## White space around a text -/

/-- The text `t` is `s` without the white space around it. -/
structure Trimmed (s t : List Char) : Prop where
  around : ∃ front back, s = front ++ (t ++ back) ∧ (∀ c ∈ front, isWhiteSpace c = true) ∧
    ∀ c ∈ back, isWhiteSpace c = true
  first : ∀ c ∈ t.head?, isWhiteSpace c = false
  last : ∀ c ∈ t.getLast?, isWhiteSpace c = false

variable {s t : List Char}

theorem dropWhile_of_head? {p : Char → Bool} (h : ∀ c ∈ t.head?, p c = false) :
    t.dropWhile p = t := by
  cases t with
  | nil => rfl
  | cons c t =>
    have hc : p c = false := h c rfl
    rw [List.dropWhile_cons, hc]
    rfl

theorem head?_dropWhile {p : Char → Bool} : ∀ c ∈ (t.dropWhile p).head?, p c = false := by
  intro c hc
  have hnot := List.head?_dropWhile_not p t
  rw [Option.mem_def.mp hc] at hnot
  exact hnot

theorem trimmed_trimWhiteSpace (s : List Char) : Trimmed s (trimWhiteSpace s) := by
  obtain ⟨r, hr⟩ : ∃ r, s.dropWhile isWhiteSpace = r := ⟨_, rfl⟩
  have hfirst : ∀ c ∈ r.head?, isWhiteSpace c = false := hr ▸ head?_dropWhile
  -- what is dropped behind is what is taken in front of the reversed text
  have hbehind : r = trimWhiteSpace s ++ (r.reverse.takeWhile isWhiteSpace).reverse := by
    have h := congrArg List.reverse
      (List.takeWhile_append_dropWhile (p := isWhiteSpace) (l := r.reverse))
    rw [List.reverse_append, List.reverse_reverse] at h
    rw [trimWhiteSpace, hr]
    exact h.symm
  have hback : ∀ c ∈ (r.reverse.takeWhile isWhiteSpace).reverse, isWhiteSpace c = true :=
    fun c hc => List.mem_takeWhile_imp (List.mem_reverse.mp hc)
  refine ⟨⟨s.takeWhile isWhiteSpace, _, ?_, fun c hc => List.mem_takeWhile_imp hc, hback⟩, ?_, ?_⟩
  · rw [← hbehind, ← hr, List.takeWhile_append_dropWhile]
  · intro c hc
    apply hfirst
    rw [hbehind, List.head?_append, Option.mem_def.mp hc]
    rfl
  · intro c hc
    rw [trimWhiteSpace, hr, List.getLast?_reverse] at hc
    exact head?_dropWhile c hc

theorem Trimmed.eq_trimWhiteSpace (h : Trimmed s t) : t = trimWhiteSpace s := by
  obtain ⟨⟨front, back, rfl, hfront, hback⟩, hfirst, hlast⟩ := h
  have hlast' : ∀ c ∈ t.reverse.head?, isWhiteSpace c = false := by
    rwa [List.head?_reverse]
  have hreverse : ∀ c ∈ back.reverse, isWhiteSpace c = true :=
    fun c hc => hback c (List.mem_reverse.mp hc)
  rw [trimWhiteSpace, List.dropWhile_append_of_pos hfront]
  cases t with
  | nil =>
    rw [List.nil_append, List.dropWhile_eq_nil_iff.mpr hback]
    rfl
  | cons c t =>
    have hbehind : ∀ x ∈ (c :: t ++ back).head?, isWhiteSpace x = false := hfirst
    rw [dropWhile_of_head? hbehind, List.reverse_append, List.dropWhile_append_of_pos hreverse,
      dropWhile_of_head? hlast', List.reverse_reverse]

namespace Address

/-! ## Notations -/

/-- The text is `0x` in either case and a numeral `w`. -/
def Prefixed (t w : List Char) : Prop :=
  ∃ x, (x = 'x' ∨ x = 'X') ∧ t = '0' :: x :: w

/-- The text is a numeral `w` and `h` in either case. -/
def Suffixed (t w : List Char) : Prop :=
  ∃ h, (h = 'h' ∨ h = 'H') ∧ t = w ++ [h]

/-- The radix and the numeral that a text without white space around it is written with. -/
inductive Written (t : List Char) : Nat → List Char → Prop where
  | prefixed {w : List Char} (h : Prefixed t w) : Written t 16 w
  | suffixed {w : List Char} (hfront : ∀ u, ¬Prefixed t u) (h : Suffixed t w) : Written t 16 w
  | decimal (hfront : ∀ u, ¬Prefixed t u) (hbehind : ∀ u, ¬Suffixed t u) : Written t 10 t

variable {radix radix' : Nat} {w w' : List Char}

theorem Prefixed.unique (h : Prefixed t w) (h' : Prefixed t w') : w = w' := by
  obtain ⟨x, -, rfl⟩ := h
  obtain ⟨x', -, ht⟩ := h'
  exact (List.cons.inj (List.cons.inj ht).2).2

theorem Suffixed.unique (h : Suffixed t w) (h' : Suffixed t w') : w = w' := by
  obtain ⟨x, -, rfl⟩ := h
  obtain ⟨x', -, ht⟩ := h'
  exact (List.append_inj' ht rfl).1

theorem Written.unique (h : Written t radix w) (h' : Written t radix' w') :
    radix = radix' ∧ w = w' := by
  cases h with
  | prefixed h =>
    cases h' with
    | prefixed h' => exact ⟨rfl, h.unique h'⟩
    | suffixed hfront => exact absurd h (hfront w)
    | decimal hfront => exact absurd h (hfront w)
  | suffixed hfront h =>
    cases h' with
    | prefixed h' => exact absurd h' (hfront w')
    | suffixed _ h' => exact ⟨rfl, h.unique h'⟩
    | decimal _ hbehind => exact absurd h (hbehind w)
  | decimal hfront hbehind =>
    cases h' with
    | prefixed h' => exact absurd h' (hfront w')
    | suffixed _ h' => exact absurd h' (hbehind w')
    | decimal => exact ⟨rfl, rfl⟩

theorem suffixed_dropLast {h : Char} (hh : h = 'h' ∨ h = 'H') (ht : t.getLast? = some h) :
    Suffixed t t.dropLast :=
  ⟨h, hh, (List.dropLast_append_getLast? h ht).symm⟩

theorem written_split (t : List Char) : Written t (split t).1 (split t).2 := by
  unfold split
  split
  next w => exact .prefixed ⟨'x', .inl rfl, rfl⟩
  next w => exact .prefixed ⟨'X', .inr rfl, rfl⟩
  next hx hX =>
    have hfront : ∀ u, ¬Prefixed t u := by
      rintro u ⟨x, rfl | rfl, rfl⟩
      · exact hx u rfl
      · exact hX u rfl
    split
    next h => exact .suffixed hfront (suffixed_dropLast (.inl rfl) h)
    next h => exact .suffixed hfront (suffixed_dropLast (.inr rfl) h)
    next hh hH =>
      refine .decimal hfront ?_
      rintro u ⟨x, rfl | rfl, rfl⟩
      · exact hh List.getLast?_concat
      · exact hH List.getLast?_concat

theorem Written.eq_split (h : Written t radix w) : split t = (radix, w) := by
  obtain ⟨hradix, hw⟩ := h.unique (written_split t)
  rw [hradix, hw]

theorem Written.radix_le (h : Written t radix w) : radix ≤ 16 := by
  cases h <;> decide

end Address

/-! ## Messages -/

theorem NumeralError.message_injective : Function.Injective NumeralError.message := by
  intro e e' h
  cases e <;> cases e' <;> simp [NumeralError.message] at h ⊢

theorem AddressError.toList_message (e : AddressError) :
    e.message.toList = "invalid address ".toList ++
      (Quoted.encode e.text ++ (": ".toList ++ e.reason.message.toList)) := by
  show ("invalid address " ++ String.ofList (Quoted.encode e.text) ++ ": " ++
    e.reason.message).toList = _
  simp only [String.toList_append, String.toList_ofList, List.append_assoc]

/-- A message tells the text that was refused and the reason. -/
theorem AddressError.message_injective : Function.Injective AddressError.message := by
  intro e e' h
  have hchars := congrArg String.toList h
  rw [toList_message, toList_message, List.append_right_inj] at hchars
  obtain ⟨htext, hbehind⟩ := Quoted.encode_append_inj hchars
  rw [List.append_right_inj, String.toList_inj] at hbehind
  have hreason : e.reason = e'.reason := NumeralError.message_injective hbehind
  cases e
  cases e'
  cases htext
  cases hreason
  rfl

namespace Address

/-! ## Reading -/

variable {text : String} {t w : List Char} {radix : Nat}

/-- An address is the numeral that its notation leaves, of at most 16 bits. -/
theorem parse_eq (ht : Trimmed text.toList t) (hw : Written t radix w) :
    parse text =
      ((Numeral.read radix 65536 w).map Nat.toUInt16).mapError (AddressError.mk t) := by
  rw [parse, ← ht.eq_trimWhiteSpace, hw.eq_split]
  dsimp only
  cases Numeral.read radix 65536 w with
  | ok n => rfl
  | error reason => rfl

theorem parse_eq_ok_iff (ht : Trimmed text.toList t) (hw : Written t radix w) (v : Word) :
    parse text = .ok v ↔ ∃ n ≤ 65535, Numeral.Denotes radix w n ∧ v = n.toUInt16 := by
  have hread (n : Nat) : Numeral.read radix 65536 w = .ok n ↔
      n < 65536 ∧ Numeral.Denotes radix w n :=
    Numeral.read_eq_ok_iff hw.radix_le (by decide)
  rw [parse_eq ht hw]
  constructor
  · intro h
    cases hn : Numeral.read radix 65536 w with
    | ok n =>
      rw [hn] at h
      obtain ⟨hlt, hdenotes⟩ := (hread n).mp hn
      exact ⟨n, Nat.le_of_lt_succ hlt, hdenotes, (Except.ok.inj h).symm⟩
    | error reason =>
      rw [hn] at h
      cases h
  · rintro ⟨n, hle, hdenotes, rfl⟩
    rw [(hread n).mpr ⟨Nat.lt_succ_of_le hle, hdenotes⟩]
    rfl

theorem parse_eq_error_iff (ht : Trimmed text.toList t) (hw : Written t radix w)
    (e : AddressError) :
    parse text = .error e ↔ e.text = t ∧ Numeral.Refused radix 65536 w e.reason := by
  have hread (reason : NumeralError) : Numeral.read radix 65536 w = .error reason ↔
      Numeral.Refused radix 65536 w reason :=
    Numeral.read_eq_error_iff hw.radix_le (by decide)
  rw [parse_eq ht hw, ← hread]
  constructor
  · intro h
    cases hn : Numeral.read radix 65536 w with
    | ok n =>
      rw [hn] at h
      cases h
    | error reason =>
      rw [hn] at h
      cases h
      exact ⟨rfl, rfl⟩
  · rintro ⟨rfl, hn⟩
    rw [hn]
    rfl

/-- Every text has a form without white space around it and a notation, and these decide what
    it is read as.  It is the address `v` exactly if the numeral of the notation is at most
    one plus sign and at least one digit of the radix that denote `v`, which is at most 65535.
    Otherwise it is refused, with the trimmed text and the reason in the message: the numeral
    is empty, or the first character behind its sign that does not fit is no digit or makes
    the number exceed 65535.  The message tells both. -/
theorem parse_grammar (text : String) :
    (∃ t radix w, Trimmed text.toList t ∧ Written t radix w) ∧
    (∀ t radix w, Trimmed text.toList t → Written t radix w →
      (∀ v, parse text = .ok v ↔ ∃ n ≤ 65535, Numeral.Denotes radix w n ∧ v = n.toUInt16) ∧
      ∀ message, (parse text).mapError AddressError.message = .error message ↔
        ∃ reason, Numeral.Refused radix 65536 w reason ∧
          message = "invalid address " ++ String.ofList (Quoted.encode t) ++ ": " ++
            reason.message) ∧
    Function.Injective AddressError.message := by
  refine ⟨⟨_, _, _, trimmed_trimWhiteSpace _, written_split _⟩, ?_,
    AddressError.message_injective⟩
  intro t radix w ht hw
  refine ⟨parse_eq_ok_iff ht hw, fun message => ?_⟩
  constructor
  · intro h
    cases he : parse text with
    | ok v =>
      rw [he] at h
      cases h
    | error e =>
      rw [he] at h
      obtain ⟨rfl, hrefused⟩ := (parse_eq_error_iff ht hw e).mp he
      exact ⟨e.reason, hrefused, (Except.error.inj h).symm⟩
  · rintro ⟨reason, hrefused, rfl⟩
    rw [(parse_eq_error_iff ht hw ⟨t, reason⟩).mpr ⟨rfl, hrefused⟩]
    rfl

/-- The `h` behind `0x` is no digit, but the fifth digit in front of it is too much already.
    A sign and zeros in front do not matter, nor does white space around. -/
theorem parse_grammar_both :
    Trimmed " 0x10000h\n".toList "0x10000h".toList ∧
      Written "0x10000h".toList 16 "10000h".toList ∧
      (parse " 0x10000h\n").mapError AddressError.message =
        .error "invalid address \"0x10000h\": number too large to fit in target type" ∧
      Trimmed "\t+0FFFFh".toList "+0FFFFh".toList ∧
      Written "+0FFFFh".toList 16 "+0FFFF".toList ∧ parse "\t+0FFFFh" = .ok 0xFFFF := by
  have htrimmed : Trimmed " 0x10000h\n".toList "0x10000h".toList := by
    have h : trimWhiteSpace " 0x10000h\n".toList = "0x10000h".toList := by decide
    exact h ▸ trimmed_trimWhiteSpace _
  have htrimmed' : Trimmed "\t+0FFFFh".toList "+0FFFFh".toList := by
    have h : trimWhiteSpace "\t+0FFFFh".toList = "+0FFFFh".toList := by decide
    exact h ▸ trimmed_trimWhiteSpace _
  have hwritten : Written "0x10000h".toList 16 "10000h".toList := written_split _
  have hwritten' : Written "+0FFFFh".toList 16 "+0FFFF".toList := written_split _
  have hrefused : Numeral.Refused 16 65536 "10000h".toList .tooLarge :=
    (Numeral.read_eq_error_iff (by decide) (by decide)).mp rfl
  have hdenotes : 65535 < 65536 ∧ Numeral.Denotes 16 "+0FFFF".toList 65535 :=
    (Numeral.read_eq_ok_iff (by decide) (by decide)).mp rfl
  have hquoted : Quoted.encode "0x10000h".toList = "\"0x10000h\"".toList := by decide +kernel
  obtain ⟨-, hgrammar, -⟩ := parse_grammar " 0x10000h\n"
  obtain ⟨-, hgrammar', -⟩ := parse_grammar "\t+0FFFFh"
  refine ⟨htrimmed, hwritten, ?_, htrimmed', hwritten', ?_⟩
  · refine ((hgrammar _ _ _ htrimmed hwritten).2 _).mpr ⟨.tooLarge, hrefused, ?_⟩
    rw [hquoted, String.ofList_toList]
    decide
  · exact ((hgrammar' _ _ _ htrimmed' hwritten').1 0xFFFF).mpr
      ⟨65535, Nat.le_refl _, hdenotes.2, rfl⟩

end Address

end Z80
