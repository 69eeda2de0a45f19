/-
  Z80.Json.Parser

  Reading JSON text.  The grammar is the strict one: no comments, no trailing
  commas, no leading zeros, no control characters inside strings, and nothing
  but blanks after the value.

  Each reader takes the characters left and gives back its result with the
  characters after it.
-/

import Z80.Json.Basic
import Z80.Text.Hex

namespace Z80.Json

/-- The characters without the blanks in front. -/
def skipBlanks : List Char → List Char
  | [] => []
  | c :: cs => if c = ' ' ∨ c = '\t' ∨ c = '\n' ∨ c = '\r' then skipBlanks cs else c :: cs

/-! ## Strings -/

/-- The unit written by four hexadecimal digits. -/
def unit? (a b c d : Char) : Option Nat := do
  let a ← Hex.value? a
  let b ← Hex.value? b
  let c ← Hex.value? c
  let d ← Hex.value? d
  some (((a * 16 + b) * 16 + c) * 16 + d)

/-- The character of a one-letter escape. -/
def escape? : Char → Option Char
  | '"' => some '"'
  | '\\' => some '\\'
  | '/' => some '/'
  | 'b' => some '\x08'
  | 'f' => some '\x0c'
  | 'n' => some '\n'
  | 'r' => some '\r'
  | 't' => some '\t'
  | _ => none

/-- The code units of a string literal from behind its opening quote: a character
    as it stands, or a unit written by its digits. -/
def units? (found : List (Char ⊕ Nat)) : List Char → Option (List (Char ⊕ Nat) × List Char)
  | [] => none
  | '"' :: cs => some (found.reverse, cs)
  | '\\' :: 'u' :: a :: b :: c :: d :: cs =>
    match unit? a b c d with
    | some u => units? (.inr u :: found) cs
    | none => none
  | '\\' :: e :: cs =>
    match escape? e with
    | some c => units? (.inl c :: found) cs
    | none => none
  | c :: cs => if c.toNat < 0x20 then none else units? (.inl c :: found) cs

/-- The text of a list of code units, in which two escaped halves of a surrogate
    pair stand for one character.  `none` if a half stands alone. -/
def joinUnits? : List (Char ⊕ Nat) → Option (List Char)
  | [] => some []
  | .inl c :: us => (joinUnits? us).map (c :: ·)
  | .inr u :: .inr v :: us =>
    if 0xD800 ≤ u ∧ u < 0xDC00 ∧ 0xDC00 ≤ v ∧ v < 0xE000 then
      (joinUnits? us).map (Char.ofNat (0x10000 + (u - 0xD800) * 0x400 + (v - 0xDC00)) :: ·)
    else if 0xD800 ≤ u ∧ u < 0xE000 then none
    else (joinUnits? (.inr v :: us)).map (Char.ofNat u :: ·)
  | .inr u :: us =>
    if 0xD800 ≤ u ∧ u < 0xE000 then none else (joinUnits? us).map (Char.ofNat u :: ·)

/-- A string literal from behind its opening quote. -/
def string? (cs : List Char) : Option (Option String × List Char) :=
  (units? [] cs).map fun r => ((joinUnits? r.1).map String.ofList, r.2)

/-! ## Numbers -/

/-- The exponent of a number, if one follows; the outer `none` is a malformed one. -/
def exponent? (cs : List Char) : Option (Option (Bool × List Nat) × List Char) :=
  match cs with
  | c :: rest =>
    if c = 'e' ∨ c = 'E' then
      let (negative, rest) := match rest with
        | '-' :: r => (true, r)
        | '+' :: r => (false, r)
        | r => (false, r)
      let (digits, rest) := takeDigits rest
      if digits.isEmpty then none else some (some (negative, digits), rest)
    else some (none, cs)
  | [] => some (none, [])

/-- A number literal. -/
def number? (cs : List Char) : Option (Number × List Char) := do
  let (negative, cs) := match cs with
    | '-' :: r => (true, r)
    | r => (false, r)
  let (whole, cs) := takeDigits cs
  if whole.isEmpty || (whole.head? == some 0 && 1 < whole.length) then none
  let (fraction, cs) ← match cs with
    | '.' :: r =>
      let (fraction, r) := takeDigits r
      if fraction.isEmpty then none else some (fraction, r)
    | r => some ([], r)
  let (exponent, cs) ← exponent? cs
  some (⟨negative, whole, fraction, exponent⟩, cs)

/-! ## Values -/

/-- A text expected next. -/
def expect? : List Char → List Char → Option (List Char)
  | [], cs => some cs
  | _ :: _, [] => none
  | e :: es, c :: cs => if e = c then expect? es cs else none

mutual

/-- A value, behind blanks.  `fuel` bounds the number of values and separators;
    the length of the text is enough. -/
def value? (fuel : Nat) (cs : List Char) : Option (Json × List Char) :=
  match fuel with
  | 0 => none
  | fuel + 1 =>
    match skipBlanks cs with
    | '"' :: cs => (string? cs).map fun r => (str r.1, r.2)
    | '[' :: cs =>
      match skipBlanks cs with
      | ']' :: cs => some (arr [], cs)
      | cs => elementsTail? fuel cs []
    | '\x7b' :: cs =>
      match skipBlanks cs with
      | '\x7d' :: cs => some (obj [], cs)
      | cs => membersTail? fuel cs []
    | 'n' :: cs => (expect? ['u', 'l', 'l'] cs).map (null, ·)
    | 't' :: cs => (expect? ['r', 'u', 'e'] cs).map (bool true, ·)
    | 'f' :: cs => (expect? ['a', 'l', 's', 'e'] cs).map (bool false, ·)
    | cs => (number? cs).map fun r => (num r.1, r.2)

/-- The elements of an array from one of them on, behind those already found. -/
def elementsTail? (fuel : Nat) (cs : List Char) (found : List Json) : Option (Json × List Char) :=
  match fuel with
  | 0 => none
  | fuel + 1 =>
    match value? fuel cs with
    | none => none
    | some (v, cs) =>
      match skipBlanks cs with
      | ',' :: cs => elementsTail? fuel cs (v :: found)
      | ']' :: cs => some (arr (v :: found).reverse, cs)
      | _ => none

/-- The members of an object from one of them on, behind those already found. -/
def membersTail? (fuel : Nat) (cs : List Char) (found : List (Option String × Json)) :
    Option (Json × List Char) :=
  match fuel with
  | 0 => none
  | fuel + 1 =>
    match skipBlanks cs with
    | '"' :: cs =>
      match string? cs with
      | none => none
      | some (name, cs) =>
        match skipBlanks cs with
        | ':' :: cs =>
          match value? fuel cs with
          | none => none
          | some (v, cs) =>
            match skipBlanks cs with
            | ',' :: cs => membersTail? fuel cs ((name, v) :: found)
            | '\x7d' :: cs => some (obj ((name, v) :: found).reverse, cs)
            | _ => none
        | _ => none
    | _ => none

end

/-- The value of a text that holds one value and nothing else but blanks. -/
def parse? (s : String) : Option Json :=
  let cs := s.toList
  match value? (cs.length + 1) cs with
  | some (v, rest) => if (skipBlanks rest).isEmpty then some v else none
  | none => none

end Z80.Json
