/-
  Z80.Toml.Literal

  The literals of TOML: strings in their four forms, numbers, truth values, dates
  and times.

  Each reader takes the characters left and gives back its result with the
  characters after it.  What follows a literal is not looked at, so `12:` reads
  as a number with a colon behind it; the reader of the line refuses the rest.
-/

import Z80.Text.Hex
import Z80.Text.Decimal
import Z80.Toml.Basic

namespace Z80.Toml

/-! ## Characters -/

/-- Whether a character may stand in a comment or in a string: any but controls
    other than the tab. -/
def isText (c : Char) : Bool :=
  c == '\t' || (0x20 ≤ c.toNat && c.toNat != 0x7F)

/-- Whether a character is a space or a tab. -/
def isSpace (c : Char) : Bool :=
  c == ' ' || c == '\t'

/-- Whether a character may stand in a name without quotation marks. -/
def isBare (c : Char) : Bool :=
  c.isAlphanum || c == '_' || c == '-'

/-- The text without the end of line in front, if there is one. -/
def dropNewline : List Char → List Char
  | '\n' :: cs => cs
  | '\r' :: '\n' :: cs => cs
  | cs => cs

/-! ## Strings -/

/-- The character of a one-letter escape. -/
def escape? : Char → Option Char
  | 'b' => some '\x08'
  | 't' => some '\t'
  | 'n' => some '\n'
  | 'f' => some '\x0c'
  | 'r' => some '\r'
  | '"' => some '"'
  | '\\' => some '\\'
  | _ => none

/-- The character whose code point is written by hexadecimal digits.  Halves of
    surrogate pairs are no characters. -/
def scalar? (digits : List Char) : Option Char := do
  let ds ← digits.mapM Hex.value?
  let n := ds.foldl (fun n d => n * 16 + d) 0
  if n.isValidChar then some (Char.ofNat n) else none

/-- A string in quotation marks on one line, from behind the opening mark; `found`
    holds the characters already read, the latest first. -/
def basic? (found : List Char) : List Char → Option (String × List Char)
  | [] => none
  | '"' :: cs => some (String.ofList found.reverse, cs)
  | '\\' :: 'u' :: a :: b :: c :: d :: cs => do
    basic? ((← scalar? [a, b, c, d]) :: found) cs
  | '\\' :: 'U' :: a :: b :: c :: d :: e :: f :: g :: h :: cs => do
    basic? ((← scalar? [a, b, c, d, e, f, g, h]) :: found) cs
  | '\\' :: e :: cs => do basic? ((← escape? e) :: found) cs
  | c :: cs => if isText c then basic? (c :: found) cs else none

/-- Whether nothing but spaces is left of a line that has an end. -/
def endsLine : List Char → Bool
  | '\n' :: _ => true
  | '\r' :: '\n' :: _ => true
  | c :: cs => isSpace c && endsLine cs
  | [] => false

/-- A string in triple quotation marks, from behind the opening ones.  Up to two
    marks may stand before the closing ones.  A backslash at the end of a line
    folds away all blanks up to the next character; `folding` says that this goes on. -/
def multiBasic? (folding : Bool) (found : List Char) : List Char → Option (String × List Char)
  | [] => none
  | '"' :: '"' :: '"' :: '"' :: '"' :: cs => some (String.ofList ('"' :: '"' :: found).reverse, cs)
  | '"' :: '"' :: '"' :: '"' :: cs => some (String.ofList ('"' :: found).reverse, cs)
  | '"' :: '"' :: '"' :: cs => some (String.ofList found.reverse, cs)
  | '\\' :: 'u' :: a :: b :: c :: d :: cs => do
    multiBasic? false ((← scalar? [a, b, c, d]) :: found) cs
  | '\\' :: 'U' :: a :: b :: c :: d :: e :: f :: g :: h :: cs => do
    multiBasic? false ((← scalar? [a, b, c, d, e, f, g, h]) :: found) cs
  | '\\' :: e :: cs =>
    if endsLine (e :: cs) then multiBasic? true found cs
    else do multiBasic? false ((← escape? e) :: found) cs
  | '\r' :: '\n' :: cs => multiBasic? folding (if folding then found else '\n' :: found) cs
  | '\n' :: cs => multiBasic? folding (if folding then found else '\n' :: found) cs
  | c :: cs =>
    if folding && isSpace c then multiBasic? true found cs
    else if isText c then multiBasic? false (c :: found) cs
    else none

/-- A string in apostrophes on one line, from behind the opening one. -/
def literal? (found : List Char) : List Char → Option (String × List Char)
  | [] => none
  | '\'' :: cs => some (String.ofList found.reverse, cs)
  | c :: cs => if isText c then literal? (c :: found) cs else none

/-- A string in triple apostrophes, from behind the opening ones. -/
def multiLiteral? (found : List Char) : List Char → Option (String × List Char)
  | [] => none
  | '\'' :: '\'' :: '\'' :: '\'' :: '\'' :: cs =>
    some (String.ofList ('\'' :: '\'' :: found).reverse, cs)
  | '\'' :: '\'' :: '\'' :: '\'' :: cs => some (String.ofList ('\'' :: found).reverse, cs)
  | '\'' :: '\'' :: '\'' :: cs => some (String.ofList found.reverse, cs)
  | '\r' :: '\n' :: cs => multiLiteral? ('\n' :: found) cs
  | '\n' :: cs => multiLiteral? ('\n' :: found) cs
  | c :: cs => if isText c then multiLiteral? (c :: found) cs else none

/-- A string value. -/
def string? : List Char → Option (String × List Char)
  | '"' :: '"' :: '"' :: cs => multiBasic? false [] (dropNewline cs)
  | '"' :: cs => basic? [] cs
  | '\'' :: '\'' :: '\'' :: cs => multiLiteral? [] (dropNewline cs)
  | '\'' :: cs => literal? [] cs
  | _ => none

/-! ## Numbers -/

/-- Digits, at least one, in which an underscore may stand between two. -/
def digits? (value? : Char → Option Nat) : List Char → Option (List Nat × List Char)
  | [] => none
  | c :: cs =>
    match value? c with
    | none => none
    | some d =>
      match cs with
      | '_' :: cs => (digits? value? cs).map fun r => (d :: r.1, r.2)
      | [] => some ([d], [])
      | next :: rest =>
        if (value? next).isSome then (digits? value? (next :: rest)).map fun r => (d :: r.1, r.2)
        else some ([d], next :: rest)

/-- The digits in front of the point: a zero stands alone. -/
def whole? : List Char → Option (List Nat × List Char)
  | '0' :: cs => some ([0], cs)
  | cs => digits? digitValue? cs

/-- An exponent with its letter, if there is one; `none` if it has no digits. -/
def exponent? : List Char → Option (Option Int × List Char)
  | c :: cs =>
    if c = 'e' ∨ c = 'E' then do
      let (negative, cs) := takeSign cs
      let (ds, cs) ← digits? digitValue? cs
      let e := ofDecimalDigits ds
      some (some (if negative then -e else e), cs)
    else some (none, c :: cs)
  | [] => some (none, [])

/-- A point with its digits, if there is one; `none` if it has no digits. -/
def fraction? : List Char → Option (Option (List Nat) × List Char)
  | '.' :: cs => (digits? digitValue? cs).map fun r => (some r.1, r.2)
  | cs => some (none, cs)

/-- A decimal number.  An integer must fit in 64 bits with its sign, and a float
    must not be too large; one that is too small without bound is kept. -/
def decimal? (cs : List Char) : Option (Toml × List Char) := do
  let (negative, cs) := takeSign cs
  let (whole, cs) ← whole? cs
  let (fraction, cs) ← fraction? cs
  let (exponent, cs) ← exponent? cs
  match fraction, exponent with
  | none, none =>
    let n := ofDecimalDigits whole
    if negative then
      if n ≤ 0x8000000000000000 then some (.int (-n), cs) else none
    else if n < 0x8000000000000000 then some (.int n, cs) else none
  | _, _ =>
    let digits := fraction.getD []
    let f := nearestFloat (ofDecimalDigits (whole ++ digits)) (exponent.getD 0 - digits.length)
    if negative then some (.float (-f), cs) else if f.isInf then none else some (.float f, cs)

/-- The digits of a number with a mark for its radix, behind the mark. -/
def radix? (radix : Nat) (cs : List Char) : Option (Toml × List Char) := do
  let (ds, cs) ← digits? (fun c => (Hex.value? c).filter (· < radix)) cs
  let n := ds.foldl (fun n d => n * radix + d) 0
  if n < 0x8000000000000000 then some (.int n, cs) else none

/-- A number by name, infinite or none. -/
def special? (cs : List Char) : Option (Toml × List Char) :=
  match takeSign cs with
  | (negative, 'i' :: 'n' :: 'f' :: cs) =>
    some (.float (if negative then -1.0 / 0.0 else 1.0 / 0.0), cs)
  | (_, 'n' :: 'a' :: 'n' :: cs) => some (.float (0.0 / 0.0), cs)
  | _ => none

/-- A number. -/
def number? : List Char → Option (Toml × List Char)
  | '0' :: 'x' :: cs => radix? 16 cs
  | '0' :: 'o' :: cs => radix? 8 cs
  | '0' :: 'b' :: cs => radix? 2 cs
  | cs => special? cs <|> decimal? cs

/-! ## Dates and times -/

/-- A number of two digits in a range. -/
def twoDigits? (low high : Nat) : List Char → Option (Nat × List Char)
  | a :: b :: cs => do
    let n := (← digitValue? a) * 10 + (← digitValue? b)
    if low ≤ n ∧ n ≤ high then some (n, cs) else none
  | _ => none

/-- The days of a month. -/
def daysOf (year month : Nat) : Nat :=
  if month = 2 then
    if year % 4 = 0 ∧ (year % 100 ≠ 0 ∨ year % 400 = 0) then 29 else 28
  else if month = 4 ∨ month = 6 ∨ month = 9 ∨ month = 11 then 30
  else 31

/-- What follows a text that is expected next. -/
def after? (c : Char) : List Char → Option (List Char)
  | d :: cs => if c = d then some cs else none
  | [] => none

/-- What follows a date. -/
def date? : List Char → Option (List Char)
  | a :: b :: c :: d :: cs => do
    let year := ofDecimalDigits (← [a, b, c, d].mapM digitValue?)
    let (month, cs) ← twoDigits? 1 12 (← after? '-' cs)
    let (_, cs) ← twoDigits? 1 (daysOf year month) (← after? '-' cs)
    some cs
  | _ => none

/-- What follows a time of day.  A leap second is a time of day. -/
def time? (cs : List Char) : Option (List Char) := do
  let (_, cs) ← twoDigits? 0 23 cs
  let (_, cs) ← twoDigits? 0 59 (← after? ':' cs)
  let (_, cs) ← twoDigits? 0 60 (← after? ':' cs)
  match cs with
  | '.' :: rest =>
    let (ds, rest) := takeDigits rest
    some (if ds.isEmpty then cs else rest)
  | _ => some cs

/-- What follows an offset from universal time. -/
def offset? : List Char → Option (List Char)
  | c :: cs =>
    if c = 'Z' ∨ c = 'z' then some cs
    else if c = '+' ∨ c = '-' then do
      let (_, cs) ← twoDigits? 0 23 cs
      let (_, cs) ← twoDigits? 0 59 (← after? ':' cs)
      some cs
    else none
  | [] => none

/-- What follows a time of day with its offset, if there is one, behind the letter
    or the space between it and a date. -/
def timeAfterDate? : List Char → Option (List Char)
  | c :: cs =>
    if c = 'T' ∨ c = 't' ∨ c = ' ' then
      (time? cs).map fun cs => (offset? cs).getD cs
    else none
  | [] => none

/-- What follows a date, a time, or both. -/
def dateTime? (cs : List Char) : Option (List Char) :=
  match date? cs with
  | some cs => some ((timeAfterDate? cs).getD cs)
  | none => time? cs

/-! ## All of them -/

/-- A value that is neither an array nor a table. -/
def scalarValue? : List Char → Option (Toml × List Char)
  | 't' :: 'r' :: 'u' :: 'e' :: cs => some (.bool true, cs)
  | 'f' :: 'a' :: 'l' :: 's' :: 'e' :: cs => some (.bool false, cs)
  | cs =>
    (string? cs).map (fun r => (.text r.1, r.2)) <|>
      (dateTime? cs).map (.dateTime, ·) <|>
      number? cs

end Z80.Toml
