/-
  Z80.Space

  A flat space of 65536 bytes, addressed by words.  The processor has two of
  them: main memory and the port space.  Every address is in range, so reading
  and writing never fail; runs of bytes that pass the top address continue at
  address zero.

  The view of a space is its byte at each address (`get`).  Two spaces with the
  same view are equal (`ext_get`), and each operation has one lemma that says
  what it does to the view.
-/

import Z80.Word

namespace Z80

/-- A 64K byte-addressable space. -/
structure Space where
  bytes : ByteArray
  size_eq : bytes.size = 65536

namespace Space

theorem toNat_lt_size (s : Space) (a : Word) : a.toNat < s.bytes.size :=
  s.size_eq ▸ a.toNat_lt

/-- The byte at an address. -/
def get (s : Space) (a : Word) : Byte :=
  s.bytes.get a.toNat (s.toNat_lt_size a)

/-- The space with one cell replaced. -/
def set (s : Space) (a : Word) (v : Byte) : Space where
  bytes := s.bytes.set a.toNat v (s.toNat_lt_size a)
  size_eq := (Array.size_set _).trans s.size_eq

/-- The space whose every cell holds `v`. -/
def fill (v : Byte) : Space where
  bytes := ⟨Array.replicate 65536 v⟩
  size_eq := Array.size_replicate

/-- The space of zeros, as found at power-on. -/
def zero : Space :=
  fill 0

instance : Inhabited Space := ⟨zero⟩

/-- The space whose cell at `a` holds `f a`. -/
def ofFn (f : Word → Byte) : Space where
  bytes := ⟨Array.ofFn fun i : Fin 65536 => f (UInt16.ofFin i)⟩
  size_eq := Array.size_ofFn

/-! ## The view -/

private theorem getElem_set_bytes {n i j : Nat} (xs : Array Byte) (hs : xs.size = n)
    (hi : i < n) (v : Byte) :
    (xs.set i v (by omega)).getD j 0 = if j = i then v else xs.getD j 0 := by
  simp only [Array.getD_eq_getD_getElem?, Array.getElem?_set]
  by_cases h : i = j
  · simp [h]
  · simp [h, Ne.symm h]

private theorem get_eq_getD (s : Space) (a : Word) :
    s.get a = s.bytes.data.getD a.toNat 0 := by
  have h : a.toNat < s.bytes.data.size := s.toNat_lt_size a
  rw [Array.getD_eq_getD_getElem?, Array.getElem?_eq_getElem h]
  rfl

theorem get_set (s : Space) (a b : Word) (v : Byte) :
    (s.set a v).get b = if b = a then v else s.get b := by
  rw [get_eq_getD, get_eq_getD]
  have h := getElem_set_bytes (j := b.toNat) s.bytes.data s.size_eq a.toNat_lt v
  simp only [UInt16.toNat_inj] at h
  exact h

@[simp] theorem get_set_self (s : Space) (a : Word) (v : Byte) : (s.set a v).get a = v := by
  simp [get_set]

theorem get_set_of_ne (s : Space) {a b : Word} (v : Byte) (h : b ≠ a) :
    (s.set a v).get b = s.get b := by
  simp [get_set, h]

@[simp] theorem get_fill (v : Byte) (a : Word) : (fill v).get a = v :=
  Array.getElem_replicate ..

@[simp] theorem get_zero (a : Word) : zero.get a = 0 :=
  get_fill 0 a

private theorem getElem_ofFn_bytes {n : Nat} (f : Fin n → Byte) (i : Nat)
    (h : i < (ByteArray.mk (Array.ofFn f)).size) :
    (ByteArray.mk (Array.ofFn f))[i] = f ⟨i, by simpa [ByteArray.size] using h⟩ :=
  Array.getElem_ofFn ..

@[simp] theorem get_ofFn (f : Word → Byte) (a : Word) : (ofFn f).get a = f a :=
  (getElem_ofFn_bytes (fun i : Fin 65536 => f (UInt16.ofFin i)) a.toNat _).trans rfl

/-- Spaces with the same byte at every address are equal. -/
theorem ext_get {s t : Space} (h : ∀ a, s.get a = t.get a) : s = t := by
  obtain ⟨⟨bs⟩, hs⟩ := s
  obtain ⟨⟨bt⟩, ht⟩ := t
  have hsize : bs.size = bt.size := hs.trans ht.symm
  have : bs = bt := by
    apply Array.ext hsize
    intro i hi hi'
    have hlt : i < 65536 := by
      have h65536 : bs.size = 65536 := hs
      omega
    have := h (UInt16.ofNatLT i hlt)
    simp only [get_eq_getD] at this
    have ht : i < bt.size := by omega
    simpa [Array.getElem?_eq_getElem, hi, ht, Nat.mod_eq_of_lt hlt] using this
  subst this
  rfl

/-! ## Words in little-endian order -/

/-- The word whose low byte is at `a` and whose high byte is at the next address. -/
def getWord (s : Space) (a : Word) : Word :=
  Word.ofBytes (s.get (a + 1)) (s.get a)

/-- The space with the low byte of `w` written at `a` and then the high byte at
    the next address. -/
def setWord (s : Space) (a w : Word) : Space :=
  (s.set a w.lo).set (a + 1) w.hi

theorem get_setWord (s : Space) (a w b : Word) :
    (s.setWord a w).get b = if b = a + 1 then w.hi else if b = a then w.lo else s.get b := by
  simp [setWord, get_set]

@[simp] theorem getWord_setWord (s : Space) (a w : Word) : (s.setWord a w).getWord a = w := by
  have h : a ≠ a + 1 := by
    intro h
    have := congrArg UInt16.toNat h
    have := a.toNat_lt
    rw [UInt16.toNat_add] at *
    simp only [UInt16.reduceToNat] at *
    omega
  simp [getWord, get_setWord, h]

/-! ## Runs of bytes -/

/-- The bytes written one after the other from `a` on, so that the last of
    several bytes for one cell is the one that stays. -/
def load (s : Space) (a : Word) : List Byte → Space
  | [] => s
  | b :: bs => (s.set a b).load (a + 1) bs

@[simp] theorem load_nil (s : Space) (a : Word) : s.load a [] = s := rfl

theorem load_cons (s : Space) (a : Word) (b : Byte) (bs : List Byte) :
    s.load a (b :: bs) = (s.set a b).load (a + 1) bs := rfl

/-- The cells named in a list written in the order of the list. -/
def write (s : Space) (cells : List (Word × Byte)) : Space :=
  cells.foldl (fun s c => s.set c.1 c.2) s

/-- The `n` bytes from `a` on. -/
def slice (s : Space) (a : Word) : Nat → List Byte
  | 0 => []
  | n + 1 => s.get a :: s.slice (a + 1) n

@[simp] theorem length_slice (s : Space) (a : Word) (n : Nat) : (s.slice a n).length = n := by
  induction n generalizing a with
  | zero => rfl
  | succ n ih => simp [slice, ih]

/-! ## Comparing spaces -/

/-- The cells below `n` at which `p` holds, in ascending order of address, in
    front of `found`. -/
def addressesBelow (p : Word → Bool) : Nat → List Word → List Word
  | 0, found => found
  | n + 1, found => addressesBelow p n (if p n.toUInt16 then n.toUInt16 :: found else found)

/-- All addresses at which `p` holds, in ascending order. -/
def addressesWhere (p : Word → Bool) : List Word :=
  addressesBelow p 65536 []

/-- The addresses at which two spaces differ, in ascending order. -/
def changed (before after : Space) : List Word :=
  addressesWhere fun a => before.get a != after.get a

/-- The addresses of the cells that are not zero, in ascending order. -/
def occupied (s : Space) : List Word :=
  addressesWhere fun a => s.get a != 0

theorem mem_addressesBelow (p : Word → Bool) (n : Nat) (hn : n ≤ 65536) (found : List Word)
    (a : Word) : a ∈ addressesBelow p n found ↔ (a.toNat < n ∧ p a) ∨ a ∈ found := by
  induction n generalizing found with
  | zero => simp [addressesBelow]
  | succ n ih =>
    have hround : n.toUInt16.toNat = n := by
      show n % 65536 = n
      omega
    have heq : a = n.toUInt16 ↔ a.toNat = n := by
      rw [← UInt16.toNat_inj, hround]
    rw [addressesBelow, ih (by omega)]
    by_cases hp : p n.toUInt16
    · by_cases ha : a = n.toUInt16
      · subst ha
        simp [hp, hround]
      · have : a.toNat ≠ n := fun h => ha (heq.mpr h)
        have : a.toNat < n ↔ a.toNat < n + 1 := by omega
        simp [hp, ha, this]
    · by_cases ha : a = n.toUInt16
      · subst ha
        simp [hp]
      · have : a.toNat ≠ n := fun h => ha (heq.mpr h)
        have : a.toNat < n ↔ a.toNat < n + 1 := by omega
        simp [hp, this]

@[simp] theorem mem_changed {before after : Space} {a : Word} :
    a ∈ changed before after ↔ before.get a ≠ after.get a := by
  have := a.toNat_lt
  simp [changed, addressesWhere, mem_addressesBelow]
  omega

end Space

end Z80
