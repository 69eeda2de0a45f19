/-
  Z80.Proofs.Discrepancies

  The check of a case finds every discrepancy.

  A case expects a number of each of its items (`Expects`): of the registers, of the cells
  and ports that it lists, and of the bus cycles.  The check passes a case exactly if the
  machine after the instruction has all these numbers (`verdict_eq_none_iff_expects`), and
  if there is one item only of which it has another, the message is about that item
  (`verdict_eq_some`).

    * `Altered`: one thing that a case expects is changed.  Then the machine is the same,
      one expectation is new and all others are as they were, with one case for each kind of
      item (`expectsAnew_of_altered`).
    * If what is changed is nothing that the check looks at, the verdict is the same
      (`verdict_restated`).

  The main statement is `verdict_of_altered`.
-/

import Mathlib.Logic.Function.Basic
import Z80.Proofs.GeneratedCases
import Z80.Proofs.HexNumerals

namespace Z80

/-! ## Names of items -/

namespace CaseRegister

theorem mem_all (reg : CaseRegister) : reg ∈ all := by
  cases reg <;> decide

theorem find?_name (reg : CaseRegister) : all.find? (·.name == reg.name) = some reg := by
  cases reg <;> rfl

theorem name_injective : Function.Injective name := by
  intro reg reg' h
  have hfound := find?_name reg
  rw [h, find?_name] at hfound
  exact (Option.some.inj hfound).symm

theorem length_name_le (reg : CaseRegister) : reg.name.length ≤ 4 := by
  cases reg <;> decide

end CaseRegister

namespace Item

/-- The numeral in the name of a cell or a port decides its address. -/
theorem upper_toNat_inj {a b : Word} : Hex.upper 4 a.toNat = Hex.upper 4 b.toNat ↔ a = b := by
  rw [Hex.upper_inj a.toNat_lt b.toNat_lt, UInt16.toNat_inj]

/-- Items have different names: those of different kinds differ in length. -/
theorem name_injective : Function.Injective name := by
  have hregister (reg : CaseRegister) : (register reg).name.length ≤ 4 := reg.length_name_le
  have hmemory (a : Word) : (memory a).name.length = 11 := by
    rw [name, String.length_append, String.length_append, Hex.length_upper]
    rfl
  have hport (a : Word) : (port a).name.length = 12 := by
    rw [name, String.length_append, String.length_append, Hex.length_upper]
    rfl
  have hcycles : cycles.name.length = 6 := rfl
  intro i j h
  have hlength := congrArg String.length h
  cases i <;> cases j
  case register.register reg reg' => exact congrArg register (CaseRegister.name_injective h)
  case memory.memory a b =>
    simp only [name, String.append_left_inj, String.append_right_inj, upper_toNat_inj] at h
    rw [h]
  case port.port a b =>
    simp only [name, String.append_left_inj, String.append_right_inj, upper_toNat_inj] at h
    rw [h]
  case cycles.cycles => rfl
  -- two kinds of items: the lengths of their names are not the same
  all_goals grind

/-- The value of an item in a machine: of F the bits in `mask`, and of the flip-flops whether
    they are set. -/
def found (mask : Byte) (m : Machine) : Item → Nat
  | register reg => reg.value mask (.ofMachine m)
  | memory a => (m.mem.get a).toNat
  | port p => (m.ports.get p).toNat
  | cycles => m.cycles

end Item

/-! ## What a case expects -/

namespace Case

/-- What a case expects of a machine after the instruction: an item with its value. -/
inductive Expects (mask : Byte) (c : Case) : Item → Nat → Prop where
  | register (reg : CaseRegister) : Expects mask c (.register reg) (reg.value mask c.final)
  | memory {a : Word} {v : Byte} (h : (a, v) ∈ c.final.ram) :
    Expects mask c (.memory a) v.toNat
  | port {p : PortAccess} (h : p ∈ c.ports) (hwrite : p.isWrite = true) :
    Expects mask c (.port p.port) p.value.toNat
  | cycles : Expects mask c .cycles c.cycles.length

variable {mask : Byte} {c c' : Case} {item item' : Item} {n n' : Nat}

/-- The check compares the items of which something is expected. -/
theorem mem_comparisons {m : Machine} {x : Comparison} :
    x ∈ c.comparisons mask m ↔
      c.Expects mask x.item x.expected ∧ x.found = x.item.found mask m := by
  simp only [comparisons, List.mem_append, List.mem_map, List.mem_singleton, portWrites,
    List.mem_filter]
  constructor
  · rintro (((⟨reg, -, rfl⟩ | ⟨⟨a, v⟩, h, rfl⟩) | ⟨-, ⟨p, ⟨h, hwrite⟩, rfl⟩, rfl⟩) | rfl)
    · exact ⟨.register reg, rfl⟩
    · exact ⟨.memory h, rfl⟩
    · exact ⟨.port h hwrite, rfl⟩
    · exact ⟨.cycles, rfl⟩
  · obtain ⟨item, found, expected⟩ := x
    rintro ⟨hexpects, hfound⟩
    dsimp only at hexpects hfound
    subst hfound
    cases hexpects with
    | register reg => exact .inl (.inl (.inl ⟨reg, reg.mem_all, rfl⟩))
    | memory h => exact .inl (.inl (.inr ⟨_, h, rfl⟩))
    | port h hwrite => exact .inl (.inr ⟨_, ⟨_, ⟨h, hwrite⟩, rfl⟩, rfl⟩)
    | cycles => exact .inr rfl

/-- A case is passed if the machine has what is expected of each item. -/
theorem verdict_eq_none_iff_expects : c.verdict mask = none ↔
    ∀ item n, c.Expects mask item n → item.found mask c.start.step = n := by
  rw [verdict_eq_none_iff]
  constructor
  · intro h item n hexpects
    exact h ⟨item, item.found mask c.start.step, n⟩ (mem_comparisons.mpr ⟨hexpects, rfl⟩)
  · intro h x hx
    obtain ⟨hexpects, hfound⟩ := mem_comparisons.mp hx
    rw [hfound]
    exact h _ _ hexpects

/-- If the machine has something else in one item only, the message is about that item. -/
theorem verdict_eq_some (hexpects : c.Expects mask item n)
    (hother : item.found mask c.start.step ≠ n)
    (honly : ∀ item' n', c.Expects mask item' n' → item'.found mask c.start.step ≠ n' →
      item' = item ∧ n' = n) :
    c.verdict mask = some (c.mismatchMessage ⟨item, item.found mask c.start.step, n⟩) := by
  have hfind : c.mismatch? mask = some ⟨item, item.found mask c.start.step, n⟩ := by
    rw [mismatch?]
    cases hfirst : (c.comparisons mask c.start.step).find? (·.differs) with
    | none =>
      have hx : ⟨item, item.found mask c.start.step, n⟩ ∈ c.comparisons mask c.start.step :=
        mem_comparisons.mpr ⟨hexpects, rfl⟩
      have hdiffers := List.find?_eq_none.mp hfirst _ hx
      exact absurd hother (by simpa [Comparison.differs] using hdiffers)
    | some x =>
      -- whatever is found first differs, and only one item does
      have hdiffers := List.find?_some hfirst
      obtain ⟨hx, hfound⟩ := mem_comparisons.mp (List.mem_of_find?_eq_some hfirst)
      obtain ⟨xitem, xfound, xexpected⟩ := x
      dsimp only at hx hfound
      subst hfound
      obtain ⟨rfl, rfl⟩ := honly _ _ hx (by simpa [Comparison.differs] using hdiffers)
      rfl
  rw [verdict, hfind, Option.map_some]

end Case

/-! ## Other values of registers -/

namespace CaseState

/-- The state with another value in a register; a byte takes the low half of the word. -/
def withRegister (s : CaseState) (v : Word) : CaseRegister → CaseState
  | .a => { s with a := v.lo }
  | .f => { s with f := v.lo }
  | .b => { s with b := v.lo }
  | .c => { s with c := v.lo }
  | .d => { s with d := v.lo }
  | .e => { s with e := v.lo }
  | .h => { s with h := v.lo }
  | .l => { s with l := v.lo }
  | .i => { s with i := v.lo }
  | .r => { s with r := v.lo }
  | .ix => { s with ix := v }
  | .iy => { s with iy := v }
  | .sp => { s with sp := v }
  | .pc => { s with pc := v }
  | .im => { s with im := v.lo }
  | .iff1 => { s with iff1 := v.lo }
  | .iff2 => { s with iff2 := v.lo }
  | .afAlt => { s with afAlt := v }
  | .bcAlt => { s with bcAlt := v }
  | .deAlt => { s with deAlt := v }
  | .hlAlt => { s with hlAlt := v }

/-- Whether another value of a register asks for something else.  F has to differ in a bit of
    the mask, a flip-flop has to be set instead of clear or clear instead of set, and any
    other register has to differ at all. -/
def Alters (mask : Byte) (s : CaseState) (v : Word) : CaseRegister → Prop
  | .f => ∃ i, mask.bit i = true ∧ v.lo.bit i ≠ s.f.bit i
  | .iff1 => ¬(v.lo = 0 ↔ s.iff1 = 0)
  | .iff2 => ¬(v.lo = 0 ↔ s.iff2 = 0)
  | reg => s.withRegister v reg ≠ s

/-- The state with the fields that the processor does not have taken from another. -/
def withInternals (s t : CaseState) : CaseState :=
  { s with wz := t.wz, ei := t.ei, p := t.p, q := t.q }

variable (mask : Byte) (s : CaseState) (v : Word)

theorem ram_withRegister (reg : CaseRegister) : (s.withRegister v reg).ram = s.ram := by
  cases reg <;> rfl

/-- The other registers keep their values. -/
theorem value_withRegister_of_ne {reg reg' : CaseRegister} (h : reg' ≠ reg) :
    reg'.value mask (s.withRegister v reg) = reg'.value mask s := by
  cases reg <;> cases reg' <;> first | rfl | exact absurd rfl h

variable {mask s v}

theorem bit_and_mask {f g : Byte} : f &&& mask = g &&& mask ↔
    ∀ i, mask.bit i = true → f.bit i = g.bit i := by
  rw [← UInt8.toNat_inj, UInt8.toNat_and, UInt8.toNat_and]
  constructor
  · intro h i hmask
    have hbit := congrArg (·.testBit i) h
    simp only [Nat.testBit_and, show mask.toNat.testBit i = true from hmask,
      Bool.and_true] at hbit
    exact hbit
  · intro h
    apply Nat.eq_of_testBit_eq
    intro i
    rw [Nat.testBit_and, Nat.testBit_and]
    cases hmask : mask.toNat.testBit i with
    | false => rw [Bool.and_false, Bool.and_false]
    | true => rw [show f.toNat.testBit i = g.toNat.testBit i from h i hmask]

theorem bne_zero_toNat_inj {a b : Byte} :
    (a != 0).toNat = (b != 0).toNat ↔ (a = 0 ↔ b = 0) := by
  have hinj : ∀ x y : Bool, x.toNat = y.toNat ↔ x = y := by decide
  rw [hinj, Bool.eq_iff_iff, bne_iff_ne, bne_iff_ne, Ne, Ne, not_iff_not]

/-- A value that asks for something else is compared as another number. -/
theorem value_withRegister_ne {reg : CaseRegister} (h : s.Alters mask v reg) :
    reg.value mask s ≠ reg.value mask (s.withRegister v reg) := by
  intro heq
  cases reg
  case f =>
    obtain ⟨i, hmask, hbit⟩ := h
    have hand : s.f &&& mask = v.lo &&& mask := UInt8.toNat_inj.mp heq
    exact hbit (bit_and_mask.mp hand i hmask).symm
  case iff1 => exact h (bne_zero_toNat_inj.mp heq).symm
  case iff2 => exact h (bne_zero_toNat_inj.mp heq).symm
  all_goals
    -- the same number is the same value, and then nothing has changed
    simp only [CaseRegister.value, withRegister, UInt8.toNat_inj, UInt16.toNat_inj] at heq
    apply h
    rw [withRegister, ← heq]

end CaseState

/-! ## Changing what a case expects -/

namespace Case

variable {mask : Byte} {c c' : Case} {item : Item} {n : Nat}

/-- `c'` is the case `c` with one of the things that it expects changed: the item that this
    is about, and what is expected of it now. -/
inductive Altered (mask : Byte) (c : Case) : Item → Nat → Case → Prop where
  /-- The value of a register in the final state. -/
  | register {reg : CaseRegister} {v : Word} (h : c.final.Alters mask v reg) :
    Altered mask c (.register reg) (reg.value mask (c.final.withRegister v reg))
      { c with final := c.final.withRegister v reg }
  /-- The byte of one cell listed in the final state. -/
  | memory {front back : List (Word × Byte)} {a : Word} {v v' : Byte}
    (hram : c.final.ram = front ++ (a, v) :: back) (h : v ≠ v') :
    Altered mask c (.memory a) v'.toNat
      { c with final := { c.final with ram := front ++ (a, v') :: back } }
  /-- The byte of one port that is written. -/
  | port {front back : List PortAccess} {p : PortAccess} {v' : Byte}
    (hports : c.ports = front ++ p :: back) (hwrite : p.isWrite = true) (h : p.value ≠ v') :
    Altered mask c (.port p.port) v'.toNat
      { c with ports := front ++ { p with value := v' } :: back }
  /-- The number of bus cycles. -/
  | cycles {cycles : List BusCycle} (h : c.cycles.length ≠ cycles.length) :
    Altered mask c .cycles cycles.length { c with cycles }

/-- `c'` has the name of `c` and runs on the same machine, and it expects something else of
    one item. -/
structure ExpectsAnew (mask : Byte) (c : Case) (item : Item) (n : Nat) (c' : Case) : Prop where
  name : c'.name = c.name
  start : c'.start = c.start
  new : c'.Expects mask item n
  old : ∃ n₀, c.Expects mask item n₀ ∧ n₀ ≠ n
  others : ∀ item' n', c'.Expects mask item' n' →
    (item' = item ∧ n' = n) ∨ c.Expects mask item' n'

theorem start_congr (hinitial : c'.initial.withInternals {} = c.initial.withInternals {})
    (hports : c'.portReads = c.portReads) : c'.start = c.start := by
  have happly (m : Machine) (s : CaseState) : m.apply s = m.apply (s.withInternals {}) := rfl
  rw [start, startOn, start, startOn, happly, hinitial, ← happly, hports]

/-- A port access that is a write is no read. -/
theorem isRead_of_isWrite {p : PortAccess} (h : p.isWrite = true) : p.isRead = false := by
  rw [PortAccess.isWrite, beq_iff_eq] at h
  rw [PortAccess.isRead, h]
  rfl

theorem mem_replaced {α : Type} {front back : List α} {x x' y : α}
    (h : y ∈ front ++ x' :: back) : y = x' ∨ y ∈ front ++ x :: back := by
  simp only [List.mem_append, List.mem_cons] at h ⊢
  obtain hfront | hnew | hback := h
  · exact .inr (.inl hfront)
  · exact .inl hnew
  · exact .inr (.inr (.inr hback))

/-- What a case expects is about one item, or another case expects it too, if that holds of
    its registers, of the cells and ports that it lists and of its bus cycles. -/
theorem others_of_parts
    (hregister : ∀ reg, (Item.register reg = item ∧ reg.value mask c'.final = n) ∨
      reg.value mask c'.final = reg.value mask c.final)
    (hmemory : ∀ x ∈ c'.final.ram, (Item.memory x.1 = item ∧ x.2.toNat = n) ∨ x ∈ c.final.ram)
    (hport : ∀ p ∈ c'.ports, (Item.port p.port = item ∧ p.value.toNat = n) ∨ p ∈ c.ports)
    (hcycles : (Item.cycles = item ∧ c'.cycles.length = n) ∨
      c'.cycles.length = c.cycles.length) :
    ∀ item' n', c'.Expects mask item' n' →
      (item' = item ∧ n' = n) ∨ c.Expects mask item' n' := by
  intro item' n' hexpects
  cases hexpects with
  | register reg =>
    obtain hnew | hkept := hregister reg
    · exact .inl hnew
    · rw [hkept]
      exact .inr (.register reg)
  | memory h => exact (hmemory _ h).imp_right .memory
  | port h hwrite => exact (hport _ h).imp_right fun hold => .port hold hwrite
  | cycles =>
    obtain hnew | hkept := hcycles
    · exact .inl hnew
    · rw [hkept]
      exact .inr .cycles

/-- Each kind of change is about one item and leaves the rest. -/
theorem expectsAnew_of_altered (h : Altered mask c item n c') : ExpectsAnew mask c item n c' := by
  cases h with
  | @register reg v h =>
    refine ⟨rfl, rfl, .register reg, ⟨_, .register reg, CaseState.value_withRegister_ne h⟩,
      others_of_parts ?_ ?_ (fun _ => .inr) (.inr rfl)⟩
    · intro reg'
      by_cases hreg : reg' = reg
      · exact .inl (by rw [hreg]; exact ⟨rfl, rfl⟩)
      · exact .inr (CaseState.value_withRegister_of_ne mask c.final v hreg)
    · intro x hx
      dsimp only at hx
      rw [CaseState.ram_withRegister] at hx
      exact .inr hx
  | @memory front back a v v' hram h =>
    refine ⟨rfl, rfl, .memory (by simp), ⟨v.toNat, .memory (by simp [hram]), ?_⟩,
      others_of_parts (fun reg => .inr (value_withRam ..)) ?_ (fun _ => .inr) (.inr rfl)⟩
    · exact fun hv => h (UInt8.toNat_inj.mp hv)
    · intro x hx
      obtain rfl | hold := mem_replaced hx
      · exact .inl ⟨rfl, rfl⟩
      · exact .inr (hram ▸ hold)
  | @port front back p v' hports hwrite h =>
    -- the ports are changed, and still the same ones are read before the instruction
    have hread := isRead_of_isWrite hwrite
    have hread' : PortAccess.isRead { p with value := v' } = false := hread
    have hreads : (Case.portReads { c with ports := front ++ { p with value := v' } :: back }) =
        c.portReads := by
      simp [portReads, hports, List.filter_append, hread, hread']
    have hnew : Expects mask { c with ports := front ++ { p with value := v' } :: back }
        (.port p.port) v'.toNat :=
      .port (p := { p with value := v' }) (by simp) hwrite
    refine ⟨rfl, start_congr rfl hreads, hnew, ⟨p.value.toNat, ?_, ?_⟩,
      others_of_parts (fun _ => .inr rfl) (fun _ => .inr) ?_ (.inr rfl)⟩
    · exact .port (by simp [hports]) hwrite
    · exact fun hv => h (UInt8.toNat_inj.mp hv)
    · intro q hq
      obtain rfl | hold := mem_replaced hq
      · exact .inl ⟨rfl, rfl⟩
      · exact .inr (hports ▸ hold)
  | cycles h =>
    exact ⟨rfl, rfl, .cycles, ⟨_, .cycles, h⟩,
      others_of_parts (fun _ => .inr rfl) (fun _ => .inr) (fun _ => .inr) (.inl ⟨rfl, rfl⟩)⟩

/-- A case that is passed and then expects something else of one item is not passed any more,
    and the message is about that item. -/
theorem ExpectsAnew.verdict (h : ExpectsAnew mask c item n c') (hpass : c.verdict mask = none) :
    c'.verdict mask = some (c'.mismatchMessage ⟨item, item.found mask c.start.step, n⟩) ∧
      item.found mask c.start.step ≠ n := by
  rw [verdict_eq_none_iff_expects] at hpass
  obtain ⟨n₀, hold, hne⟩ := h.old
  have hother : item.found mask c.start.step ≠ n := by
    rw [hpass item n₀ hold]
    exact hne
  refine ⟨?_, hother⟩
  rw [← h.start]
  apply verdict_eq_some h.new
  · rwa [h.start]
  · intro item' n' hexpects hdiffers
    rw [h.start] at hdiffers
    exact (h.others item' n' hexpects).resolve_right fun hkept => hdiffers (hpass item' n' hkept)

/-- Neither bits of F outside the mask, nor what the processor does not have, nor what is in
    the bus cycles enters into the verdict. -/
theorem verdict_restated {f : Byte} (t t' : CaseState) {cycles : List BusCycle}
    (hf : ∀ i, mask.bit i = true → f.bit i = c.final.f.bit i)
    (hcycles : cycles.length = c.cycles.length) (hpass : c.verdict mask = none) :
    Case.verdict { c with
      initial := c.initial.withInternals t
      final := { c.final.withInternals t' with f }
      cycles } mask = none := by
  rw [verdict_eq_none_iff_expects] at hpass ⊢
  intro item n hexpects
  apply hpass
  cases hexpects with
  | register reg =>
    have hvalue : reg.value mask { c.final.withInternals t' with f } = reg.value mask c.final := by
      cases reg
      case f => exact congrArg UInt8.toNat (CaseState.bit_and_mask.mpr hf)
      all_goals rfl
    dsimp only
    rw [hvalue]
    exact .register reg
  | memory h => exact .memory h
  | port h hwrite => exact .port h hwrite
  | cycles =>
    dsimp only
    rw [hcycles]
    exact .cycles

/-- The check finds every single discrepancy.  If a case is passed and one of the things that
    it expects is changed, the message names the case and that item, with the value that the
    machine has and the other one that is expected; items have different names and the values
    can be read off their numerals.  A case that is changed only in bits of the final F
    outside the mask, in the fields of both states that the processor does not have, and in
    what is in its bus cycles is passed as before. -/
theorem verdict_of_altered (c : Case) (mask : Byte) (hpass : c.verdict mask = none) :
    (∀ item expected c', Altered mask c item expected c' →
      let found := item.found mask c.start.step
      found ≠ expected ∧
      c'.verdict mask = some (c.name ++ ": " ++ item.name ++ " (got 0x" ++ Hex.short found ++
        " exp 0x" ++ Hex.short expected ++ ")")) ∧
    (∀ (f : Byte) (t t' : CaseState) (cycles : List BusCycle),
      (∀ i, mask.bit i = true → f.bit i = c.final.f.bit i) →
      cycles.length = c.cycles.length →
      Case.verdict { c with
        initial := c.initial.withInternals t
        final := { c.final.withInternals t' with f }
        cycles } mask = none) ∧
    Function.Injective Item.name ∧ ∀ n, Hex.number (Hex.short n).toList = n := by
  refine ⟨?_, ?_, Item.name_injective, Hex.number_short⟩
  · intro item expected c' haltered
    have hanew := expectsAnew_of_altered haltered
    obtain ⟨hverdict, hother⟩ := hanew.verdict hpass
    rw [mismatchMessage, hanew.name] at hverdict
    exact ⟨hother, hverdict⟩
  · intro f t t' cycles hf hcycles
    exact verdict_restated t t' hf hcycles hpass

/-- OUT (42),A with another byte expected on the port, in a cell and in a documented flag, and
    with two bits of F that the mask leaves out. -/
theorem verdict_of_altered_out :
    let before : CaseState :=
      { pc := 0x100, a := 0x11, f := 0x28, iff1 := 5, ram := [(0x100, 0xD3), (0x101, 0x42)] }
    let final : CaseState := { before with pc := 0x102, r := 1 }
    let c : Case :=
      ⟨"d3 42", before, final, List.replicate 11 untraced, [⟨0x1142, 0x11, "w"⟩]⟩
    c.verdict documentedFlags = none ∧
      Case.verdict { c with ports := [⟨0x1142, 0x12, "w"⟩] } documentedFlags =
        some "d3 42: PORT[0x1142] (got 0x11 exp 0x12)" ∧
      Case.verdict { c with final := { final with ram := [(0x100, 0xD3), (0x101, 0)] } }
        documentedFlags = some "d3 42: RAM[0x0101] (got 0x42 exp 0x0)" ∧
      Case.verdict { c with final := { final with f := 0x29 } } documentedFlags =
        some "d3 42: F (got 0x0 exp 0x1)" ∧
      Case.verdict { c with final := { final with f := 0 } } documentedFlags = none := by
  intro before final c
  have hmem (a : Word) : c.start.mem.get a =
      if a = 0x101 then 0x42 else if a = 0x100 then 0xD3 else 0 := by
    simp [c, before, start, startOn, Machine.apply, Space.write, Machine.initial, Space.get_set]
  have hstep : c.start.step = c.start.execute ⟨.outA 0x42, 2, false⟩ := by
    have hpc : c.start.pc = 0x100 := rfl
    rw [Machine.step_of_running rfl, Machine.current, hpc, hmem, hmem, hmem, hmem]
    rfl
  have hport : c.start.step.ports.get 0x1142 = 0x11 := by
    have haddress : Word.ofBytes 0x11 0x42 = 0x1142 := by decide
    rw [hstep, ← haddress]
    exact Space.get_set_self c.start.ports (Word.ofBytes 0x11 0x42) 0x11
  have hfound (item : Item) (n : Nat) (h : c.Expects documentedFlags item n) :
      item.found documentedFlags c.start.step = n := by
    cases h with
    | register reg =>
      rw [hstep]
      cases reg <;> decide +kernel
    | @memory a v h =>
      have hcell : c.start.mem.get a = v := by
        simp only [c, before, final, List.mem_cons, Prod.mk.injEq, List.not_mem_nil, or_false] at h
        obtain ⟨rfl, rfl⟩ | ⟨rfl, rfl⟩ := h
        · exact hmem 0x100
        · exact hmem 0x101
      rw [hstep]
      exact congrArg UInt8.toNat hcell
    | port h hwrite =>
      rw [List.mem_singleton.mp h]
      exact congrArg UInt8.toNat hport
    | cycles =>
      rw [hstep]
      decide +kernel
  have hpass : c.verdict documentedFlags = none := verdict_eq_none_iff_expects.mpr hfound
  obtain ⟨haltered, hrestated, -, -⟩ := verdict_of_altered c documentedFlags hpass
  -- what is found is what the case expected before it was altered
  have hmessage {item : Item} {old expected : Nat} {c' : Case}
      (h : Altered documentedFlags c item expected c') (hold : c.Expects documentedFlags item old) :
      c'.verdict documentedFlags = some ("d3 42: " ++ item.name ++ " (got 0x" ++ Hex.short old ++
        " exp 0x" ++ Hex.short expected ++ ")") := by
    rw [← hfound item old hold]
    exact (haltered item expected c' h).2
  have hwrite : PortAccess.isWrite ⟨0x1142, 0x11, "w"⟩ = true := PortAccess.isWrite_write ..
  refine ⟨hpass, ?_, ?_, ?_, ?_⟩
  · exact hmessage (@Altered.port _ c [] [] ⟨0x1142, 0x11, "w"⟩ 0x12 rfl hwrite (by decide))
      (.port (List.mem_singleton_self _) hwrite)
  · exact hmessage (@Altered.memory _ c [(0x100, 0xD3)] [] 0x101 0x42 0 rfl (by decide))
      (.memory (List.mem_cons_of_mem _ List.mem_cons_self))
  · have hold : CaseRegister.f.value documentedFlags c.final = 0 := by decide
    have hnew : CaseRegister.f.value documentedFlags (c.final.withRegister 0x29 .f) = 1 := by decide
    have hf := hmessage (@Altered.register _ c .f 0x29 ⟨0, by decide, by decide⟩) (.register .f)
    rw [hold, hnew] at hf
    exact hf
  · exact hrestated 0 {} {} c.cycles (CaseState.bit_and_mask.mp (by decide)) rfl

end Case

end Z80
