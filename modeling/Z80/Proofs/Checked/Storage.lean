/-
  Z80.Proofs.Checked.Storage

  Registers, memory and ports by number.

  A bank is an array of eight bytes, each pair with its low register first, a space one of
  65536, and whatever is read or written is named by its place; beyond the end there is
  nothing.  All the places that registers, pairs and addresses stand for exist, and what is
  there is what the machine has (`get?_eq`, `read?_eq` and their kin).
-/

import Z80.Machine
import Z80.Proofs.Checked.Arithmetic

namespace Z80

namespace Checked

/-! ## Places in a bank -/

/-- The place of a register in its bank. -/
def slot : Reg8 → Nat
  | .c => 0
  | .b => 1
  | .e => 2
  | .d => 3
  | .l => 4
  | .h => 5
  | .f => 6
  | .a => 7

/-- The place of the low register of a pair; the high one is next to it. -/
def lowSlot : Reg16 → Nat
  | .bc => 0
  | .de => 2
  | .hl => 4
  | .af => 6

end Checked

namespace Bank

open Checked

/-- The bytes of a bank in the order of their places. -/
def cells (k : Bank) : Vector Byte 8 :=
  #v[k.c, k.b, k.e, k.d, k.l, k.h, k.f.toByte, k.a]

/-- The bank with these bytes. -/
def ofCells (v : Vector Byte 8) : Bank where
  c := v[0]
  b := v[1]
  e := v[2]
  d := v[3]
  l := v[4]
  h := v[5]
  f := .ofByte v[6]
  a := v[7]

/-- The byte in a register. -/
def get? (k : Bank) (r : Reg8) : Option Byte :=
  k.cells[slot r]?

/-- The bank with one register replaced. -/
def set? (k : Bank) (r : Reg8) (v : Byte) : Option Bank :=
  if h : slot r < 8 then some (ofCells (k.cells.set (slot r) v h)) else none

/-- The word in a register pair. -/
def pair? (k : Bank) (rr : Reg16) : Option Word := do
  let low ← k.cells[lowSlot rr]?
  let high ← k.cells[lowSlot rr + 1]?
  return Word.ofBytes high low

/-- The bank with both registers of a pair replaced, two places next to each other. -/
def setPair? (k : Bank) (rr : Reg16) (w : Word) : Option Bank :=
  if h : lowSlot rr + 2 ≤ 8 then
    some (ofCells ((k.cells.set (lowSlot rr) w.lo (by omega)).set (lowSlot rr + 1) w.hi (by omega)))
  else none

theorem get?_eq (k : Bank) (r : Reg8) : k.get? r = some (k.get r) := by
  cases r <;> rfl

theorem set?_eq (k : Bank) (r : Reg8) (v : Byte) : k.set? r v = some (k.set r v) := by
  cases r <;> simp [set?, slot, ofCells, cells, set]

theorem pair?_eq (k : Bank) (rr : Reg16) : k.pair? rr = some (k.pair rr) := by
  cases rr <;> rfl

theorem setPair?_eq (k : Bank) (rr : Reg16) (w : Word) :
    k.setPair? rr w = some (k.setPair rr w) := by
  cases rr <;> simp [setPair?, lowSlot, ofCells, cells, setPair, set, Reg16.high, Reg16.low]

end Bank

/-! ## Both banks -/

namespace Registers

open Checked

/-- Two banks with the bytes at one place exchanged. -/
def swap? (banks : Vector Byte 8 × Vector Byte 8) (place : Nat) :
    Option (Vector Byte 8 × Vector Byte 8) :=
  if h : place < 8 then
    some (banks.1.set place banks.2[place] h, banks.2.set place banks.1[place] h)
  else none

/-- The registers with some places of the main bank exchanged with their shadows. -/
def exchange? (k : Registers) (places : List Nat) : Option Registers := do
  let (main, shadow) ← places.foldlM swap? (k.main.cells, k.shadow.cells)
  return { k with main := .ofCells main, shadow := .ofCells shadow }

/-- EX AF,AF' exchanges two places. -/
theorem exchange?_af (k : Registers) : k.exchange? [slot .a, slot .f] = some k.exchangeAf := by
  simp [exchange?, swap?, slot, exchangeAf, Bank.cells, Bank.ofCells]

/-- EXX exchanges the first six places. -/
theorem exchange?_main (k : Registers) : k.exchange? (List.range 6) = some k.exchangeMain := by
  simp [exchange?, swap?, List.range_succ, exchangeMain, Bank.cells, Bank.ofCells]

end Registers

/-- The word with one of its two bytes replaced, the low one at place 0. -/
def Word.setHalf? (w : Word) (place : Nat) (v : Byte) : Option Word :=
  if h : place < 2 then
    let halves : Vector Byte 2 := #v[w.lo, w.hi].set place v h
    some (.ofBytes halves[1] halves[0])
  else none

theorem Word.setHalf?_high (w : Word) (v : Byte) : w.setHalf? 1 v = some (ofBytes v w.lo) := rfl

theorem Word.setHalf?_low (w : Word) (v : Byte) : w.setHalf? 0 v = some (ofBytes w.hi v) := rfl

/-! ## Spaces -/

/-- A run of bytes as a memory of 64-bit addresses can hold one, at most half of it. -/
structure Slice where
  bytes : List Byte
  length_lt : bytes.length < 2 ^ 63

namespace Space

open Checked

variable (s : Space)

/-- The byte at a place. -/
def read? (n : Nat) : Option Byte :=
  if h : n < s.bytes.size then some (s.bytes.get n h) else none

/-- The space with the byte at one place replaced. -/
def write? (n : Nat) (v : Byte) : Option Space :=
  if h : n < s.bytes.size then some ⟨s.bytes.set n v h, (Array.size_set _).trans s.size_eq⟩
  else none

/-- The word with its low byte at an address and its high byte at the next one. -/
def readWord? (a : Word) : Option Word := do
  let low ← s.read? a.toNat
  let high ← s.read? (a + 1).toNat
  return Word.ofBytes high low

/-- The space with both bytes of a word replaced. -/
def writeWord? (a w : Word) : Option Space := do
  let s ← s.write? a.toNat w.lo
  s.write? (a + 1).toNat w.hi

theorem read?_eq (a : Word) : s.read? a.toNat = some (s.get a) :=
  dif_pos (s.toNat_lt_size a)

theorem write?_eq (a : Word) (v : Byte) : s.write? a.toNat v = some (s.set a v) :=
  dif_pos (s.toNat_lt_size a)

theorem readWord?_eq (a : Word) : s.readWord? a = some (s.getWord a) := by
  rw [readWord?, read?_eq, read?_eq]
  rfl

theorem writeWord?_eq (a w : Word) : s.writeWord? a w = some (s.setWord a w) := by
  rw [writeWord?, write?_eq, Option.bind_eq_bind, Option.bind_some, write?_eq]
  rfl

/-! ## Loading -/

/-- The bytes written from place `n` on, which they may not pass the end from. -/
def copy? (s : Space) (n : Nat) : List Byte → Option Space
  | [] => some s
  | b :: bs => do
    let s ← s.write? n b
    s.copy? (n + 1) bs

/-- The bytes written at the addresses from `i` behind `a` on, around the end. -/
def wrap? (s : Space) (a : Word) (i : Nat) : List Byte → Option Space
  | [] => some s
  | b :: bs => do
    let s ← s.write? (a + i.toUInt16).toNat b
    s.wrap? a (i + 1) bs

/-- A run of bytes written from an address on: at once as a range of places if it ends in
    front of the top, and else byte by byte. -/
def load? (s : Space) (a : Word) (data : Slice) : Option Space := do
  let stop ← sum? 64 a.toNat [data.bytes.length]
  if stop ≤ 65536 then
    if a.toNat ≤ stop ∧ stop ≤ s.bytes.size ∧ stop - a.toNat = data.bytes.length then
      s.copy? a.toNat data.bytes
    else none
  else s.wrap? a 0 data.bytes

theorem copy?_eq (s : Space) (a : Word) {bs : List Byte} (h : a.toNat + bs.length ≤ 65536) :
    s.copy? a.toNat bs = some (s.load a bs) := by
  induction bs generalizing s a with
  | nil => rfl
  | cons b bs ih =>
    rw [List.length_cons] at h
    rw [copy?, write?_eq, Option.bind_eq_bind, Option.bind_some, load_cons]
    cases bs with
    | nil => rfl
    | cons c cs =>
      -- another byte follows, so the next address is not around the end
      have hnext : a.toNat + 1 = (a + 1).toNat := by
        rw [List.length_cons] at h
        rw [UInt16.toNat_add]
        show _ = (a.toNat + 1) % 65536
        omega
      rw [hnext]
      exact ih _ _ (by rw [← hnext]; omega)

theorem wrap?_eq (s : Space) (a : Word) (i : Nat) (bs : List Byte) :
    s.wrap? a i bs = some (s.load (a + i.toUInt16) bs) := by
  induction bs generalizing s i with
  | nil => rfl
  | cons b bs ih =>
    have hnext : a + (i + 1).toUInt16 = a + i.toUInt16 + 1 := by
      rw [show (i + 1).toUInt16 = i.toUInt16 + 1 from UInt16.ofNat_add i 1, UInt16.add_assoc]
    rw [wrap?, write?_eq, Option.bind_eq_bind, Option.bind_some, ih, hnext, load_cons]

/-- Loading finds all its places and writes the bytes one after the other. -/
theorem load?_eq (s : Space) (a : Word) (data : Slice) :
    s.load? a data = some (s.load a data.bytes) := by
  have := a.toNat_lt
  have := data.length_lt
  have hstop : sum? 64 a.toNat [data.bytes.length] = some (a.toNat + data.bytes.length) :=
    sum?_one (by omega)
  rw [load?, hstop, Option.bind_eq_bind, Option.bind_some]
  split
  case isTrue hfits =>
    have hrange : a.toNat ≤ a.toNat + data.bytes.length ∧
        a.toNat + data.bytes.length ≤ s.bytes.size ∧
        a.toNat + data.bytes.length - a.toNat = data.bytes.length := by
      rw [s.size_eq]
      omega
    rw [if_pos hrange]
    exact s.copy?_eq a hfits
  case isFalse =>
    have hfirst : a + (0 : Nat).toUInt16 = a := UInt16.add_zero a
    rw [wrap?_eq, hfirst]

end Space

end Z80
