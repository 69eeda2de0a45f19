/-
  Z80.Proofs.ImageLoading

  Runs of bytes in a space, and images from files.

  A run of any length is written byte by byte from an address on, around the end of the
  space, so several of its bytes may fall on one cell (`Falls`).  The last of them stays
  (`get_load_of_last`), and a cell that none falls on keeps its own
  (`get_load_of_not_falls`); of a run that fits the space every byte stays
  (`get_load_of_fits`).  A run that ends in front of the top may as well be copied as a
  range.

  A file is loaded as such a run if it has one byte at least and fits the space; any other is
  refused with the space as it was.  The main statement is `loading_law`.
-/

import Mathlib.Order.Bounds.Basic
import Z80.Image
import Z80.Proofs.Checked.Storage

namespace Z80

namespace Space

variable (s : Space) (a x : Word)

/-! ## The last byte for a cell -/

/-- Byte `i` of a run from `a` on falls on the cell `x`. -/
def Falls (a x : Word) (i : Nat) : Prop :=
  (a.toNat + i) % 65536 = x.toNat

instance (i : Nat) : Decidable (Falls a x i) :=
  inferInstanceAs (Decidable (_ = _))

theorem falls_iff (i : Nat) : Falls a x i ↔ x = a + i.toUInt16 := by
  have hplace : (a + i.toUInt16).toNat = (a.toNat + i) % 65536 :=
    (UInt16.toNat_add ..).trans (Nat.add_mod_mod ..)
  rw [Falls, ← UInt16.toNat_inj, hplace, eq_comm]

theorem falls_zero : Falls a x 0 ↔ x = a := by
  have hfirst : a + (0 : Nat).toUInt16 = a := UInt16.add_zero a
  rw [falls_iff, hfirst]

theorem falls_succ (i : Nat) : Falls (a + 1) x i ↔ Falls a x (i + 1) := by
  have hnext : (a + 1).toNat = (a.toNat + 1) % 65536 := UInt16.toNat_add a 1
  rw [Falls, Falls, hnext]
  omega

/-- A cell that no byte falls on keeps its own. -/
theorem get_load_of_not_falls {data : List Byte} (h : ∀ i < data.length, ¬Falls a x i) :
    (s.load a data).get x = s.get x := by
  induction data generalizing s a with
  | nil => rfl
  | cons b bs ih =>
    have hfirst : x ≠ a := fun hx => h 0 (by simp) ((falls_zero a x).mpr hx)
    rw [load_cons, ih (s.set a b) (a + 1), get_set_of_ne s b hfirst]
    intro i hi hfalls
    exact h (i + 1) (by simpa using hi) ((falls_succ a x i).mp hfalls)

/-- Of the bytes that fall on a cell the last one stays. -/
theorem get_load_of_last {data : List Byte} {i : Nat} (hi : i < data.length) (hfalls : Falls a x i)
    (hlast : ∀ j < data.length, Falls a x j → j ≤ i) : (s.load a data).get x = data[i] := by
  induction data generalizing s a i with
  | nil => cases hi
  | cons b bs ih =>
    rw [load_cons]
    cases i with
    | zero =>
      -- the first byte is the last one for the cell, so the others leave it
      have hrest : ∀ j < bs.length, ¬Falls (a + 1) x j := by
        intro j hj hj'
        have := hlast (j + 1) (by simpa using hj) ((falls_succ a x j).mp hj')
        omega
      rw [get_load_of_not_falls _ _ _ hrest, (falls_zero a x).mp hfalls, get_set_self]
      rfl
    | succ i =>
      refine ih (s.set a b) (a + 1) (by simpa using hi) ((falls_succ a x i).mpr hfalls) ?_
      intro j hj hj'
      have := hlast (j + 1) (by simpa using hj) ((falls_succ a x j).mp hj')
      omega

/-! ## Runs that fit the space -/

/-- Of a run that fits the space every byte stays. -/
theorem get_load_of_fits {data : List Byte} (h : data.length ≤ 65536) {i : Nat}
    (hi : i < data.length) : (s.load a data).get (a + i.toUInt16) = data[i] := by
  have hfalls : Falls a (a + i.toUInt16) i := (falls_iff ..).mpr rfl
  refine get_load_of_last s a _ hi hfalls fun j hj hj' => ?_
  rw [Falls] at hfalls hj'
  omega

theorem get_load_of_ne {data : List Byte} (h : ∀ i < data.length, x ≠ a + i.toUInt16) :
    (s.load a data).get x = s.get x :=
  get_load_of_not_falls s a x fun i hi hfalls => h i hi ((falls_iff a x i).mp hfalls)

/-! ## Files -/

theorem run_loadFile_tooLarge {data : List Byte} (h : 65536 < data.length) :
    (loadFile a (.ok data)).run s = (.error (.tooLarge data.length), s) := by
  cases data with
  | nil => cases h
  | cons b bs =>
    dsimp only [loadFile]
    rw [if_pos h]
    rfl

theorem run_loadFile_of_fits {data : List Byte} (hne : 1 ≤ data.length)
    (h : data.length ≤ 65536) :
    (loadFile a (.ok data)).run s = (.ok data.length, s.load a data) := by
  cases data with
  | nil => cases hne
  | cons b bs =>
    dsimp only [loadFile]
    rw [if_neg (Nat.not_lt.mpr h)]
    rfl

/-- A file is loaded exactly when its bytes are there, one at least, and fit the space. -/
theorem run_loadFile_eq_ok_iff (file : Except FileError (List Byte)) (n : Nat) (t : Space) :
    (loadFile a file).run s = (.ok n, t) ↔
      ∃ data, file = .ok data ∧ 1 ≤ data.length ∧ data.length ≤ 65536 ∧
        n = data.length ∧ t = s.load a data := by
  constructor
  · intro h
    cases file with
    | error e => cases h
    | ok data =>
      obtain hempty | hne : data.length = 0 ∨ 1 ≤ data.length := by omega
      · rw [List.length_eq_zero_iff.mp hempty] at h
        cases h
      · obtain hfits | hlarge : data.length ≤ 65536 ∨ 65536 < data.length := by omega
        · rw [run_loadFile_of_fits s a hne hfits] at h
          cases h
          exact ⟨data, rfl, hne, hfits, rfl, rfl⟩
        · rw [run_loadFile_tooLarge s a hlarge] at h
          cases h
  · rintro ⟨data, rfl, hne, hfits, rfl, rfl⟩
    exact run_loadFile_of_fits s a hne hfits

/-- Loading a run of bytes from an address on, and loading a file.

    Each cell has the last of the bytes that fall on it, or its own if there is none, and a
    run written around the end and a run copied as a range come to the same.  A file of 1 to
    65536 bytes is loaded so and gives their number; one that cannot be read, is empty or is
    larger gives its error, and every cell stays. -/
theorem loading_law (s : Space) (a : Word) (data : List Byte) :
    (∀ x, (∀ i (hi : i < data.length), IsGreatest {j | j < data.length ∧ Falls a x j} i →
        (s.load a data).get x = data[i]) ∧
      ((∀ j < data.length, ¬Falls a x j) → (s.load a data).get x = s.get x)) ∧
    s.wrap? a 0 data = some (s.load a data) ∧
    (a.toNat + data.length ≤ 65536 → s.copy? a.toNat data = some (s.load a data)) ∧
    (∀ file n t, (loadFile a file).run s = (.ok n, t) ↔
      ∃ data, file = .ok data ∧ 1 ≤ data.length ∧ data.length ≤ 65536 ∧
        n = data.length ∧ t = s.load a data) ∧
    (∀ e, (loadFile a (.error e)).run s = (.error (.io e), s)) ∧
    (loadFile a (.ok [])).run s = (.error .empty, s) ∧
    (65536 < data.length →
      (loadFile a (.ok data)).run s = (.error (.tooLarge data.length), s)) := by
  refine ⟨fun x => ⟨fun i hi hgreatest => ?_, get_load_of_not_falls s a x⟩, ?_, s.copy?_eq a,
    run_loadFile_eq_ok_iff s a, fun e => rfl, rfl, run_loadFile_tooLarge s a⟩
  · obtain ⟨⟨-, hfalls⟩, hupper⟩ := hgreatest
    exact get_load_of_last s a x hi hfalls fun j hj hj' => hupper ⟨hj, hj'⟩
  · have hfirst : a + (0 : Nat).toUInt16 = a := UInt16.add_zero a
    rw [wrap?_eq, hfirst]

/-- Four bytes around the end, and a run that is one byte longer than the space: its last byte
    takes the place of the first, and as a file it is refused. -/
theorem loading_law_wrapped :
    let long : List Byte := List.replicate 65536 1 ++ [2]
    (zero.load 0xFFFE [1, 2, 3, 4]).get 0 = 3 ∧
    (zero.load 0xFFFE [1, 2, 3, 4]).get 0x8000 = 0 ∧
    zero.copy? 0xFFFE [1, 2] = some (zero.load 0xFFFE [1, 2]) ∧
    (zero.load 0 long).get 0 = 2 ∧
    (loadFile 0 (.ok long)).run zero = (.error (.tooLarge 65537), zero) := by
  intro long
  have hlength : long.length = 65537 := by
    rw [List.length_append, List.length_replicate]
    rfl
  have haround := (loading_law zero 0xFFFE [1, 2, 3, 4]).1
  have hlong := loading_law zero 0 long
  refine ⟨?_, ?_, ?_, ?_, ?_⟩
  · refine (haround 0).1 2 (by simp) ⟨⟨by simp, by decide⟩, ?_⟩
    rintro j ⟨hj, hj'⟩
    simp only [Falls, List.length_cons, List.length_nil, UInt16.reduceToNat] at hj hj'
    omega
  · refine ((haround 0x8000).2 ?_).trans (get_zero _)
    intro j hj hj'
    simp only [Falls, List.length_cons, List.length_nil, UInt16.reduceToNat] at hj hj'
    omega
  · exact (loading_law zero 0xFFFE [1, 2]).2.2.1 (by decide)
  · -- bytes 0 and 65536 fall on cell 0, and the later one stays
    have hbound : 65536 < long.length := by omega
    have hlast : long[65536] = 2 :=
      List.getElem_concat_length List.length_replicate.symm hbound
    rw [(hlong.1 0).1 65536 hbound ⟨⟨hbound, by decide⟩, ?_⟩, hlast]
    rintro j ⟨hj, -⟩
    omega
  · have hrefused := hlong.2.2.2.2.2.2 (by omega)
    rwa [hlength] at hrefused

end Space

end Z80
