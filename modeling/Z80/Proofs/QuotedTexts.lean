/-
  Z80.Proofs.QuotedTexts

  Quoted texts read back.

  The character that an escape stands for is read back from it whatever follows
  (`unescape_escape`), so no quoted text is the start of another one (`encode_append_inj`):
  what stands behind a quoted text in a message can be told from the text.
-/

import Mathlib.Tactic.SplitIfs
import Z80.Proofs.HexNumerals
import Z80.Text.Quoted

namespace Z80

namespace Hex

/-- The digits of a numeral are digits. -/
theorem exists_value?_of_mem_fixed {capital : Bool} {w n : Nat} {c : Char}
    (h : c ∈ fixed capital w n) : ∃ d, value? c = some d := by
  induction w generalizing n with
  | zero => cases h
  | succ w ih =>
    rw [fixed, List.mem_append, List.mem_singleton] at h
    obtain h | rfl := h
    · exact ih h
    · exact ⟨n % 16, value?_digit capital (Nat.mod_lt n (by decide))⟩

theorem number_shortLower (n : Nat) : number (shortLower n) = n := by
  rw [shortLower, number_fixed, Nat.mod_eq_of_lt (lt_pow_width n)]

theorem brace_not_mem_shortLower (n : Nat) : '\x7d' ∉ shortLower n := by
  intro h
  obtain ⟨d, hd⟩ := exists_value?_of_mem_fixed h
  cases hd

end Hex

namespace Quoted

/-- The character at the start of what stands between quotation marks, and the rest. -/
def unescape : List Char → Option (Char × List Char)
  | '\\' :: 'u' :: '\x7b' :: cs =>
    some (Char.ofNat (Hex.number (cs.takeWhile (· != '\x7d'))),
      (cs.dropWhile (· != '\x7d')).tail)
  | '\\' :: 't' :: cs => some ('\t', cs)
  | '\\' :: 'n' :: cs => some ('\n', cs)
  | '\\' :: 'r' :: cs => some ('\r', cs)
  | '\\' :: '0' :: cs => some ('\x00', cs)
  | '\\' :: c :: cs => some (c, cs)
  | c :: cs => some (c, cs)
  | [] => none

/-- An escape by code point ends at its closing brace. -/
theorem unescape_codePoint (c : Char) (rest : List Char) :
    unescape ('\\' :: 'u' :: '\x7b' :: (Hex.shortLower c.toNat ++ '\x7d' :: rest)) =
      some (c, rest) := by
  have hdigits : ∀ x ∈ Hex.shortLower c.toNat, (x != '\x7d') = true := by
    intro x hx
    rw [bne_iff_ne]
    rintro rfl
    exact Hex.brace_not_mem_shortLower _ hx
  have htake : (Hex.shortLower c.toNat ++ '\x7d' :: rest).takeWhile (· != '\x7d') =
      Hex.shortLower c.toNat := by
    rw [List.takeWhile_append_of_pos hdigits]
    simp
  have hdrop : (Hex.shortLower c.toNat ++ '\x7d' :: rest).dropWhile (· != '\x7d') =
      '\x7d' :: rest := by
    rw [List.dropWhile_append_of_pos hdigits]
    simp
  rw [unescape, htake, hdrop, Hex.number_shortLower, Char.ofNat_toNat]
  rfl

theorem unescape_of_ne {c : Char} (h : c ≠ '\\') (rest : List Char) :
    unescape (c :: rest) = some (c, rest) := by
  unfold unescape
  split <;> simp_all

/-- A character is read back from its escape, whatever follows. -/
theorem unescape_escape (c : Char) (rest : List Char) :
    unescape (escape c ++ rest) = some (c, rest) := by
  -- one case for each kind of escape, the last of which spells out the code point
  unfold escape
  split_ifs with hmark hslash htab hline hreturn hzero hshown
  · rw [hmark]; rfl
  · rw [hslash]; rfl
  · rw [htab]; rfl
  · rw [hline]; rfl
  · rw [hreturn]; rfl
  · rw [hzero]; rfl
  · exact unescape_of_ne hslash rest
  · simp only [List.append_assoc, List.cons_append, List.nil_append]
    exact unescape_codePoint c rest

/-- No escape is the start of another one. -/
theorem escape_append_inj {c c' : Char} {rest rest' : List Char}
    (h : escape c ++ rest = escape c' ++ rest') : c = c' ∧ rest = rest' := by
  have hread := congrArg unescape h
  rw [unescape_escape, unescape_escape, Option.some.injEq, Prod.mk.injEq] at hread
  exact hread

/-- No escape is the closing mark. -/
theorem escape_append_ne (c : Char) (rest rest' : List Char) :
    escape c ++ rest ≠ '"' :: rest' := by
  intro h
  have hread := congrArg unescape h
  rw [unescape_escape, unescape_of_ne (by decide), Option.some.injEq, Prod.mk.injEq] at hread
  obtain ⟨rfl, rfl⟩ := hread
  exact absurd (List.cons.inj h).1 (by decide)

theorem flatMap_escape_inj {cs cs' rest rest' : List Char}
    (h : cs.flatMap escape ++ '"' :: rest = cs'.flatMap escape ++ '"' :: rest') :
    cs = cs' ∧ rest = rest' := by
  induction cs generalizing cs' with
  | nil =>
    cases cs' with
    | nil => exact ⟨rfl, (List.cons.inj h).2⟩
    | cons c' cs' =>
      rw [List.flatMap_cons, List.append_assoc] at h
      exact absurd h.symm (escape_append_ne c' _ _)
  | cons c cs ih =>
    rw [List.flatMap_cons, List.append_assoc] at h
    cases cs' with
    | nil => exact absurd h (escape_append_ne c _ _)
    | cons c' cs' =>
      rw [List.flatMap_cons, List.append_assoc] at h
      obtain ⟨rfl, hrest⟩ := escape_append_inj h
      obtain ⟨rfl, hbehind⟩ := ih hrest
      exact ⟨rfl, hbehind⟩

/-- No quoted text is the start of another one. -/
theorem encode_append_inj {cs cs' rest rest' : List Char}
    (h : encode cs ++ rest = encode cs' ++ rest') : cs = cs' ∧ rest = rest' := by
  simp only [encode, List.cons_append, List.append_assoc, List.nil_append,
    List.cons.injEq, true_and] at h
  exact flatMap_escape_inj h

end Quoted

end Z80
