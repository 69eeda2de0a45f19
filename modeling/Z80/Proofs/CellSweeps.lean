/-
  Z80.Proofs.CellSweeps

  Sweeps of an operation over consecutive cells of memory.

  RL (HL), RLD and their kin replace the cell at HL and hand something on to the next
  operation: a bit in C, or a digit in A (`CellOp.apply`).  A sweep executes one after the
  other, with HL moved to the next cell in between (`Sweep`).  It comes to each cell once, so
  what it leaves in the cells, in A and in C is a fold over the bytes that it started with
  (`CellOp.sweep`); the main statement is `Sweep.result`.

  How HL is moved is left open, as long as A, C and memory stay.  With INC HL and DEC HL in
  between (`CellOp.program`) the whole machine after a sweep of shifts is known
  (`executeAll_shifts`).
-/

import Mathlib.Data.List.Nodup
import Z80.Proofs.BlockRuns
import Z80.Proofs.Machine

namespace Z80

/-! ## Consecutive cells -/

namespace Direction

theorem along_add_delta (dir : Direction) (a : Word) (i : Nat) :
    dir.along (a + dir.delta) i = dir.along a (i + 1) := by
  have hi : (i + 1).toUInt16 = i.toUInt16 + 1 := UInt16.ofNat_add i 1
  cases dir with
  | up =>
    dsimp only [along, delta]
    rw [hi]
    grind
  | down =>
    dsimp only [along, delta]
    rw [hi]
    grind

/-- The first `n` cells from `a` on in a direction. -/
def cells (dir : Direction) (a : Word) (n : Nat) : List Word :=
  (List.range n).map (dir.along a)

theorem cells_zero (dir : Direction) (a : Word) : dir.cells a 0 = [] := rfl

theorem cells_succ (dir : Direction) (a : Word) (n : Nat) :
    dir.cells a (n + 1) = a :: dir.cells (a + dir.delta) n := by
  have hmap : dir.along (a + dir.delta) = dir.along a ∘ Nat.succ :=
    funext (along_add_delta dir a)
  rw [cells, cells, List.range_succ_eq_map, List.map_cons, List.map_map, along_zero, hmap]

theorem cells_succ' (dir : Direction) (a : Word) (n : Nat) :
    dir.cells a (n + 1) = dir.cells a n ++ [dir.along a n] := by
  rw [cells, cells, List.range_succ, List.map_append, List.map_cons, List.map_nil]

/-- No cell comes twice before the space is around. -/
theorem nodup_cells (dir : Direction) (a : Word) {n : Nat} (hn : n ≤ 65536) :
    (dir.cells a n).Nodup := by
  refine List.Nodup.map_on ?_ List.nodup_range
  intro i hi j hj heq
  rw [List.mem_range] at hi hj
  exact dir.along_inj a (by omega) (by omega) heq

/-- The way on from a cell does not come back to it. -/
theorem not_mem_cells_add_delta (dir : Direction) (a : Word) {n : Nat} (hn : n < 65536) :
    a ∉ dir.cells (a + dir.delta) n := by
  have hnodup := dir.nodup_cells a (Nat.succ_le_of_lt hn)
  rw [cells_succ] at hnodup
  exact (List.nodup_cons.mp hnodup).1

/-- The way down from the last cell is the way up in reverse. -/
theorem cells_down (a : Word) (n : Nat) :
    down.cells (up.along a n) (n + 1) = (up.cells a (n + 1)).reverse := by
  induction n with
  | zero => rw [along_zero, cells_succ, cells_succ, cells_zero, cells_zero, List.reverse_singleton]
  | succ n ih =>
    have hback : up.along a (n + 1) + down.delta = up.along a n := by
      rw [along_succ]
      dsimp only [delta]
      grind
    rw [cells_succ, hback, ih, cells_succ' up a (n + 1), List.reverse_append,
      List.reverse_singleton, List.singleton_append]

/-- The first of the `n` cells from `a` on that a direction comes to. -/
def start (dir : Direction) (a : Word) (n : Nat) : Word :=
  match dir with
  | up => a
  | down => up.along a (n - 1)

/-- What lies in cells, from the lowest on, in the order in which a direction comes to it. -/
def order {α : Type} (dir : Direction) (xs : List α) : List α :=
  match dir with
  | up => xs
  | down => xs.reverse

@[simp] theorem order_order {α : Type} (dir : Direction) (xs : List α) :
    dir.order (dir.order xs) = xs := by
  cases dir with
  | up => rfl
  | down => exact List.reverse_reverse xs

theorem mem_order {α : Type} {dir : Direction} {xs : List α} {x : α} :
    x ∈ dir.order xs ↔ x ∈ xs := by
  cases dir with
  | up => rfl
  | down => exact List.mem_reverse

/-- A direction comes to all cells of a buffer. -/
theorem cells_start (dir : Direction) (a : Word) {n : Nat} (hpos : 0 < n) :
    dir.cells (dir.start a n) n = dir.order (up.cells a n) := by
  obtain ⟨k, rfl⟩ : ∃ k, n = k + 1 := ⟨n - 1, by omega⟩
  cases dir with
  | up => rfl
  | down => exact cells_down a k

end Direction

namespace Space

theorem slice_eq_map_cells (s : Space) (a : Word) (n : Nat) :
    s.slice a n = (Direction.up.cells a n).map s.get := by
  induction n generalizing a with
  | zero => rfl
  | succ n ih =>
    rw [slice, ih, Direction.cells_succ, List.map_cons]
    rfl

theorem map_order_cells (s : Space) (dir : Direction) (a : Word) (n : Nat) :
    (dir.order (Direction.up.cells a n)).map s.get = dir.order (s.slice a n) := by
  rw [slice_eq_map_cells]
  cases dir with
  | up => rfl
  | down => exact List.map_reverse

end Space

/-! ## Operations on the cell at HL -/

/-- An operation that replaces the cell at HL. -/
inductive CellOp where
  /-- A rotation or shift of the cell, through C. -/
  | shift (op : RotOp)
  /-- RLD. -/
  | digitsLeft
  /-- RRD. -/
  | digitsRight
  deriving DecidableEq, Repr

namespace CellOp

/-- The instruction of an operation. -/
def instr : CellOp → Instr
  | shift op => .rot op .hl none
  | digitsLeft => .rld
  | digitsRight => .rrd

/-- What an operation makes of A and C and of the byte in the cell: the new byte, and then
    the new A and C. -/
def apply (op : CellOp) (s : Byte × Bool) (v : Byte) : Byte × Byte × Bool :=
  match op with
  | shift op => ((op.apply v s.2).1, s.1, (op.apply v s.2).2)
  | digitsLeft => ((rotateDigitsLeft s.1 v).2, (rotateDigitsLeft s.1 v).1, s.2)
  | digitsRight => ((rotateDigitsRight s.1 v).2, (rotateDigitsRight s.1 v).1, s.2)

/-- The byte that S, Z, P/V and the undocumented flags describe after an operation. -/
def shown (op : CellOp) (r : Byte × Byte × Bool) : Byte :=
  match op with
  | shift _ => r.1
  | digitsLeft | digitsRight => r.2.1

/-- F after an operation. -/
def flags (op : CellOp) (r : Byte × Byte × Bool) : Flags :=
  { Flags.ofLogical (op.shown r) with c := r.2.2 }

/-- What operations in turn make of A and C and of a list of bytes, one byte for each. -/
def sweep : List CellOp → Byte × Bool → List Byte → List Byte × Byte × Bool
  | op :: ops, s, v :: vs =>
    let r := op.apply s v
    let rest := sweep ops r.2 vs
    (r.1 :: rest.1, rest.2)
  | _, s, vs => (vs, s)

theorem length_sweep (ops : List CellOp) (s : Byte × Bool) (vs : List Byte) :
    (sweep ops s vs).1.length = vs.length := by
  induction ops generalizing s vs with
  | nil => cases vs <;> rfl
  | cons op ops ih =>
    cases vs with
    | nil => rfl
    | cons v vs => exact congrArg Nat.succ (ih _ vs)

end CellOp

/-! ## One operation of the machine -/

/-- INC HL or DEC HL. -/
def Direction.move : Direction → Instr
  | up => .incPair (.bank .hl)
  | down => .decPair (.bank .hl)

namespace Machine

/-- HL is moved on by one cell, with A, C and memory kept. -/
structure MovesOn (dir : Direction) (m m' : Machine) : Prop where
  hl : m'.hl = m.hl + dir.delta
  a : m'.a = m.a
  carry : m'.flags.c = m.flags.c
  mem : m'.mem = m.mem

variable {m : Machine} {d : Decoded}

theorem execute_cellOp {op : CellOp} (h : d.instr = op.instr) :
    let r := op.apply (m.a, m.flags.c) (m.mem.get m.hl)
    m.execute d = { ((m.fetch d).store m.hl r.1).setAf r.2.1 (op.flags r) with
      cycles := (m.execute d).cycles } := by
  dsimp only [execute]
  rw [h]
  cases op with
  | shift op => rfl
  | digitsLeft => rfl
  | digitsRight => rfl

theorem execute_move {dir : Direction} (h : d.instr = dir.move) :
    m.execute d = { (m.fetch d).setPair (.bank .hl) (m.hl + dir.delta) with
      cycles := (m.execute d).cycles } := by
  dsimp only [execute]
  rw [h]
  cases dir with
  | up => rfl
  | down =>
    have hback : m.hl + Direction.down.delta = m.hl - 1 := by
      dsimp only [Direction.delta]
      grind
    rw [hback]
    rfl

theorem movesOn_execute {dir : Direction} (h : d.instr = dir.move) :
    m.MovesOn dir (m.execute d) := by
  rw [execute_move h]
  exact {
    hl := (pair_setPair _ _ (.bank .hl) _).trans (if_pos rfl)
    a := rfl
    carry := rfl
    mem := rfl }

end Machine

/-! ## Sweeps -/

/-- A sweep: the operations are executed in turn, and between them HL is moved to the next
    cell in a direction. -/
inductive Sweep (dir : Direction) : List CellOp → Machine → Machine → Prop
  | last {op : CellOp} {d : Decoded} {m : Machine} (first : d.instr = op.instr) :
    Sweep dir [op] m (m.execute d)
  | next {op : CellOp} {ops : List CellOp} {d : Decoded} {m between m' : Machine}
    (first : d.instr = op.instr) (move : (m.execute d).MovesOn dir between)
    (rest : Sweep dir ops between m') : Sweep dir (op :: ops) m m'

namespace Sweep

variable {dir : Direction} {ops : List CellOp} {m m' : Machine}

/-- A sweep shorter than the space does to its cells, A and C what its operations do to the
    bytes of the cells in turn, and it leaves the other cells alone. -/
theorem result (h : Sweep dir ops m m') (hlength : ops.length ≤ 65536) :
    let cells := dir.cells m.hl ops.length
    CellOp.sweep ops (m.a, m.flags.c) (cells.map m.mem.get) =
        (cells.map m'.mem.get, m'.a, m'.flags.c) ∧
      Space.SameOutside cells m.mem m'.mem := by
  induction h with
  | @last op d m first =>
    dsimp only [List.length_singleton]
    rw [Direction.cells_succ, Machine.execute_cellOp first]
    refine ⟨?_, Space.sameOutside_set m.mem m.hl _⟩
    show _ = ([(m.mem.set m.hl _).get m.hl], _)
    rw [Space.get_set_self]
    rfl
  | @next op ops d m between m' first move rest ih =>
    rw [List.length_cons] at hlength ⊢
    obtain ⟨hsweep, hframe⟩ := ih (by omega)
    -- the operation has replaced the first cell and HL is at the second
    have hexecute := Machine.execute_cellOp (m := m) first
    generalize hr : op.apply (m.a, m.flags.c) (m.mem.get m.hl) = r at hexecute
    have hhl : between.hl = m.hl + dir.delta := by
      rw [move.hl, hexecute]
      rfl
    have hmem : between.mem = m.mem.set m.hl r.1 := by
      rw [move.mem, hexecute]
      rfl
    have hstate : (between.a, between.flags.c) = r.2 := by
      rw [move.a, move.carry, hexecute]
      rfl
    rw [hhl] at hsweep hframe
    -- the rest of the sweep does not come back to the first cell
    have hfresh : m.hl ∉ dir.cells (m.hl + dir.delta) ops.length :=
      dir.not_mem_cells_add_delta m.hl (by omega)
    have hfound : (dir.cells (m.hl + dir.delta) ops.length).map between.mem.get =
        (dir.cells (m.hl + dir.delta) ops.length).map m.mem.get := by
      refine List.map_congr_left fun b hb => ?_
      rw [hmem, Space.get_set_of_ne]
      rintro rfl
      exact hfresh hb
    have hfirst : m'.mem.get m.hl = r.1 := by
      rw [hframe m.hl hfresh, hmem, Space.get_set_self]
    rw [hstate, hfound] at hsweep
    dsimp only
    rw [Direction.cells_succ]
    constructor
    · rw [List.map_cons, List.map_cons, CellOp.sweep, hr, hsweep, hfirst]
    · have hset : Space.SameOutside [m.hl] m.mem between.mem := by
        rw [hmem]
        exact Space.sameOutside_set m.mem m.hl r.1
      exact (hset.mono (by simp)).trans (hframe.mono (List.subset_cons_self _ _))

/-- A sweep over the cells of a buffer. -/
theorem result_buffer {a : Word} {n : Nat} (h : Sweep dir ops m m') (hlength : ops.length = n)
    (hpos : 0 < n) (hn : n ≤ 65536) (hhl : m.hl = dir.start a n) :
    CellOp.sweep ops (m.a, m.flags.c) (dir.order (m.mem.slice a n)) =
        (dir.order (m'.mem.slice a n), m'.a, m'.flags.c) ∧
      Space.SameOutside (Direction.up.cells a n) m.mem m'.mem := by
  obtain ⟨hsweep, hframe⟩ := h.result (hlength ▸ hn)
  rw [hlength, hhl, Direction.cells_start dir a hpos] at hsweep hframe
  rw [Space.map_order_cells, Space.map_order_cells] at hsweep
  exact ⟨hsweep, hframe.mono fun _ => Direction.mem_order.mp⟩

/-- A sweep ends with HL at its last cell. -/
theorem hl_eq (h : Sweep dir ops m m') : m'.hl = dir.along m.hl (ops.length - 1) := by
  induction h with
  | @last op d m first =>
    rw [Machine.execute_cellOp first, List.length_singleton, Direction.along_zero]
    rfl
  | @next op ops d m between m' first move rest ih =>
    have hhl : between.hl = m.hl + dir.delta := by
      rw [move.hl, Machine.execute_cellOp first]
      rfl
    have hlength : ops.length - 1 + 1 = ops.length := by
      cases rest <;> rfl
    rw [ih, hhl, Direction.along_add_delta, hlength, List.length_cons, Nat.add_sub_cancel]

/-- A, C and F after a sweep are what the last of its operations leaves. -/
theorem exists_last (h : Sweep dir ops m m') : ∃ op ∈ ops, ∃ s v,
    (m'.a, m'.flags.c) = (op.apply s v).2 ∧ m'.flags = op.flags (op.apply s v) := by
  induction h with
  | @last op d m first =>
    refine ⟨op, List.mem_singleton_self op, (m.a, m.flags.c), m.mem.get m.hl, ?_⟩
    rw [Machine.execute_cellOp first]
    exact ⟨rfl, rfl⟩
  | next first move rest ih =>
    obtain ⟨op, hmem, hlast⟩ := ih
    exact ⟨op, List.mem_cons_of_mem _ hmem, hlast⟩

end Sweep

/-! ## Straight-line programs -/

namespace Machine

/-- The machine after fetching and executing instructions in turn. -/
def executeAll (m : Machine) (ds : List Decoded) : Machine :=
  ds.foldl execute m

/-- The machine after fetching instructions in turn, with none of them executed: the program
    counter is behind them and R has counted their fetches. -/
def fetchAll (m : Machine) (ds : List Decoded) : Machine :=
  ds.foldl fetch m

/-- The machine comes to the instructions of a list in its next steps. -/
def Executes (m : Machine) : List Decoded → Prop
  | [] => True
  | d :: ds => m.halted = false ∧ m.current = d ∧ (m.execute d).Executes ds

theorem Executes.steps_eq {m : Machine} {ds : List Decoded} (h : m.Executes ds) :
    steps ds.length m = m.executeAll ds := by
  induction ds generalizing m with
  | nil => rfl
  | cons d ds ih =>
    obtain ⟨hrunning, hcurrent, hrest⟩ := h
    rw [List.length_cons, steps, step_of_running hrunning, hcurrent]
    exact ih hrest

end Machine

/-- The instructions of a sweep that moves HL by INC HL or DEC HL. -/
def CellOp.program (dir : Direction) (ops : List CellOp) : List Instr :=
  (ops.map instr).intersperse dir.move

theorem CellOp.length_program (dir : Direction) (ops : List CellOp) :
    (program dir ops).length = 2 * ops.length - 1 := by
  rw [program, List.length_intersperse, List.length_map]

/-- The program of a sweep has its operations and moves of HL. -/
theorem CellOp.mem_program {dir : Direction} {ops : List CellOp} {i : Instr}
    (h : i ∈ program dir ops) : i ∈ ops.map instr ∨ i = dir.move := by
  induction ops with
  | nil => cases h
  | cons op ops ih =>
    cases ops with
    | nil => exact .inl h
    | cons op' ops =>
      obtain rfl | h := List.mem_cons.mp h
      · exact .inl List.mem_cons_self
      obtain rfl | h := List.mem_cons.mp h
      · exact .inr rfl
      · exact (ih h).imp_left (List.mem_cons_of_mem _)

/-- Any machine can be swept. -/
theorem exists_sweep (dir : Direction) {ops : List CellOp} (hne : ops ≠ []) (m : Machine) :
    ∃ m', Sweep dir ops m m' := by
  induction ops generalizing m with
  | nil => exact absurd rfl hne
  | cons op ops ih =>
    have first : (⟨op.instr, 2, true⟩ : Decoded).instr = op.instr := rfl
    cases ops with
    | nil => exact ⟨_, .last first⟩
    | cons op' ops =>
      have moves : (⟨dir.move, 1, false⟩ : Decoded).instr = dir.move := rfl
      have move := Machine.movesOn_execute (m := m.execute ⟨op.instr, 2, true⟩) moves
      obtain ⟨m', rest⟩ := ih (List.cons_ne_nil _ _) ((m.execute ⟨op.instr, 2, true⟩).execute _)
      exact ⟨m', .next first move rest⟩

/-- Executing the program of a sweep is one. -/
theorem sweep_executeAll {dir : Direction} {ops : List CellOp} (hne : ops ≠ []) (m : Machine)
    {ds : List Decoded} (h : ds.map (·.instr) = CellOp.program dir ops) :
    Sweep dir ops m (m.executeAll ds) := by
  induction ops generalizing m ds with
  | nil => exact absurd rfl hne
  | cons op ops ih =>
    cases ops with
    | nil =>
      obtain ⟨d, rfl, hd⟩ := List.map_eq_singleton_iff.mp h
      exact .last hd
    | cons op' ops =>
      obtain ⟨d, ds, rfl, hd, h⟩ := List.map_eq_cons_iff.mp h
      obtain ⟨d', ds, rfl, hd', h⟩ := List.map_eq_cons_iff.mp h
      exact .next hd (Machine.movesOn_execute hd') (ih (List.cons_ne_nil _ _) _ h)

/-! ## What shifts leave alone -/

namespace Machine

/-- The machine with F, HL, memory and the time of the last instruction of another. -/
def withSwept (m k : Machine) : Machine :=
  { m with
    regs.main.f := k.regs.main.f
    regs.main.h := k.regs.main.h
    regs.main.l := k.regs.main.l
    mem := k.mem
    cycles := k.cycles }

theorem fetchAll_withSwept (m k : Machine) (ds : List Decoded) :
    (m.withSwept k).fetchAll ds = (m.fetchAll ds).withSwept k := by
  induction ds generalizing m with
  | nil => rfl
  | cons d ds ih => exact ih (m.fetch d)

theorem execute_eq_withSwept {m : Machine} {d : Decoded}
    (h : (∃ op, d.instr = (CellOp.shift op).instr) ∨ ∃ dir : Direction, d.instr = dir.move) :
    m.execute d = (m.fetch d).withSwept (m.execute d) := by
  obtain ⟨op, h⟩ | ⟨dir, h⟩ := h
  · rw [execute_cellOp h]
    rfl
  · rw [execute_move h]
    rfl

/-- Shifts of cells with INC HL or DEC HL between them change F, HL and memory; the program
    counter and R are where the fetches move them, and nothing else is changed. -/
theorem executeAll_shifts {dir : Direction} {ops : List RotOp} (m : Machine) {ds : List Decoded}
    (h : ds.map (·.instr) = CellOp.program dir (ops.map .shift)) :
    m.executeAll ds = (m.fetchAll ds).withSwept (m.executeAll ds) := by
  have hmem : ∀ d ∈ ds,
      (∃ op, d.instr = (CellOp.shift op).instr) ∨ ∃ dir : Direction, d.instr = dir.move := by
    intro d hd
    have hinstr : d.instr ∈ CellOp.program dir (ops.map .shift) := h ▸ List.mem_map_of_mem hd
    refine (CellOp.mem_program hinstr).imp (fun hshift => ?_) fun hmove => ⟨dir, hmove⟩
    rw [List.map_map, List.mem_map] at hshift
    obtain ⟨op, -, hop⟩ := hshift
    exact ⟨op, hop.symm⟩
  clear h
  induction ds generalizing m with
  | nil => rfl
  | cons d ds ih =>
    obtain ⟨hd, hds⟩ := List.forall_mem_cons.mp hmem
    calc (m.execute d).executeAll ds
        = ((m.execute d).fetchAll ds).withSwept ((m.execute d).executeAll ds) := ih _ hds
      _ = (((m.fetch d).withSwept (m.execute d)).fetchAll ds).withSwept
            ((m.execute d).executeAll ds) := by rw [← execute_eq_withSwept hd]
      _ = ((m.fetch d).fetchAll ds).withSwept ((m.execute d).executeAll ds) := by
        rw [fetchAll_withSwept]
        rfl

end Machine

end Z80
