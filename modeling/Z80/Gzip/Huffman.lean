/-
  Z80.Gzip.Huffman

  Canonical prefix codes.  A code is given by the length of the code word of
  each symbol; words of one length are numbered in the order of their symbols
  and follow those that are shorter.
-/

import Z80.Gzip.Bits

namespace Z80.Gzip

/-- A prefix code: the number of words of each length from one on, and the
    symbols in the order of their words. -/
structure Huffman where
  counts : List Nat
  symbols : Array Nat

namespace Huffman

/-- The lengths of code words. -/
def wordLengths : List Nat :=
  (List.range 15).map (· + 1)

/-- The words still free at a length when the shorter ones are given away; `none`
    if there were not enough. -/
def free? : List Nat → Nat → Option Nat
  | [], left => some left
  | n :: counts, left => if 2 * left < n then none else free? counts (2 * left - n)

/-- The code with the given word lengths, zero for a symbol without a word.  The
    words must use up the code, unless there is at most one. -/
def ofLengths? (lengths : List Nat) : Option Huffman :=
  let counts := wordLengths.map fun n => lengths.count n
  let symbols := wordLengths.flatMap fun n =>
    ((List.range lengths.length).zip lengths).filterMap fun (symbol, length) =>
      if length = n then some symbol else none
  match free? counts 1 with
  | none => none
  | some left =>
    if left ≠ 0 ∧ 1 < symbols.length then none else some ⟨counts, symbols.toArray⟩

/-- The symbol whose word comes next.  `code` is the word read so far, `first` the
    first word of its length and `index` the place of that word's symbol. -/
def walk (symbols : Array Nat) : List Nat → Nat → Nat → Nat → Bits → Option (Nat × Bits)
  | [], _, _, _, _ => none
  | n :: counts, code, first, index, s => do
    let (b, s) ← s.next?
    let code := code + b.toNat
    if code < first + n then do
      let symbol ← symbols[index + (code - first)]?
      some (symbol, s)
    else walk symbols counts (2 * code) (2 * (first + n)) (index + n) s

/-- The symbol whose word comes next. -/
def decode? (h : Huffman) (s : Bits) : Option (Nat × Bits) :=
  walk h.symbols h.counts 0 0 0 s

end Huffman

end Z80.Gzip
