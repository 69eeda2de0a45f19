/-
  Z80.Proofs.ReadLocality

  What a step can read.

  An instruction reads the cells that hold it, at most two more (`Instr.sources`) and
  at most one port (`Instr.portSources`).  What it leaves in the registers and the
  bytes that it writes depend on nothing else in memory and in the ports: with the
  same registers over any other memory and ports that agree there, it does the same
  (`exists_step_onto`).
-/

import Z80.Proofs.Machine

namespace Z80

/-! ## Lists of cells -/

namespace Space

theorem write_cons (s : Space) (c : Word × Byte) (cells : List (Word × Byte)) :
    s.write (c :: cells) = (s.set c.1 c.2).write cells := rfl

/-- A cell that is not in the list keeps its byte. -/
theorem get_write_of_not_mem (s : Space) {cells : List (Word × Byte)} {a : Word}
    (h : a ∉ cells.map Prod.fst) : (s.write cells).get a = s.get a := by
  induction cells generalizing s with
  | nil => rfl
  | cons c cells ih =>
    rw [List.map_cons, List.mem_cons, not_or] at h
    rw [write_cons, ih _ h.2, get_set_of_ne s c.2 h.1]

/-- Written with the same cells, two spaces hold the same bytes in these cells and
    wherever they did before. -/
theorem get_write_congr {s t : Space} {cells : List (Word × Byte)} {a : Word}
    (h : a ∈ cells.map Prod.fst ∨ s.get a = t.get a) :
    (s.write cells).get a = (t.write cells).get a := by
  induction cells generalizing s t with
  | nil => exact h.resolve_left List.not_mem_nil
  | cons c cells ih =>
    rw [write_cons, write_cons]
    apply ih
    -- the head is written in both, whether or not the cell is listed again
    by_cases ha : a = c.1
    · right
      rw [ha, get_set_self, get_set_self]
    · rw [List.map_cons, List.mem_cons] at h
      rw [get_set_of_ne s c.2 ha, get_set_of_ne t c.2 ha]
      exact h.imp_left fun hmem => hmem.resolve_left ha

end Space

/-! ## Machines with the same registers -/

namespace Machine

/-- The registers of one machine put onto the memory, the ports and the clock of
    another. -/
def onto (m k : Machine) : Machine :=
  { k with regs := m.regs, im := m.im, halted := m.halted }

/-- The machine with cells of memory and ports written. -/
def patch (k : Machine) (stored sent : List (Word × Byte)) : Machine :=
  { k with mem := k.mem.write stored, ports := k.ports.write sent }

variable (m k : Machine)

theorem setFlags_onto (f : Flags) :
    (m.onto k).setFlags f = (m.setFlags f).onto k := rfl

theorem setPair_onto (rr : Pair) (w : Word) :
    (m.onto k).setPair rr w = (m.setPair rr w).onto k := by
  cases rr <;> rfl

theorem pair_onto (rr : Pair) : (m.onto k).pair rr = m.pair rr := by
  cases rr <;> rfl

theorem copyTo_onto (r? : Option Reg8) (v : Byte) :
    (m.onto k).copyTo r? v = (m.copyTo r? v).onto k := by
  cases r? <;> rfl

theorem jumpIf_onto (taken : Bool) (w : Word) :
    (m.onto k).jumpIf taken w = (m.jumpIf taken w).onto k := by
  cases taken <;> rfl

/-- A write to an operand stores to its cell, if it has one. -/
theorem write_onto (o : Operand) (v : Byte) :
    (m.onto k).write o v =
      (m.write o v).onto (k.patch ((m.address? o).toList.map (·, v)) []) := by
  cases o with
  | high x => cases x <;> rfl
  | low x => cases x <;> rfl
  | _ => rfl

theorem storeWord_onto (a w : Word) :
    (m.onto k).storeWord a w =
      (m.storeWord a w).onto (k.patch [(a, w.lo), (a + 1, w.hi)] []) := rfl

theorem push_onto (w : Word) :
    (m.onto k).push w =
      (m.push w).onto (k.patch [(m.regs.sp - 2, w.lo), (m.regs.sp - 2 + 1, w.hi)] []) := rfl

variable {m k} in
/-- An operand is read from the registers or from its cell. -/
theorem read_onto {o : Operand} (h : ∀ a ∈ (m.address? o).toList, k.mem.get a = m.mem.get a) :
    (m.onto k).read o = m.read o := by
  cases o with
  | hl => exact h m.hl (List.mem_singleton.mpr rfl)
  | indexed x d => exact h _ (List.mem_singleton.mpr rfl)
  | _ => rfl

end Machine

/-! ## Sources -/

namespace Instr

/-- The memory cells that an instruction reads besides its own bytes. -/
def sources (m : Machine) : Instr → List Word
  | ld _ src | alu _ src | bit _ src => (m.address? src).toList
  | inc dst | dec dst => (m.address? dst).toList
  | rot _ target _ | res _ target _ | set _ target _ => (m.address? target).toList
  | ldAFromPair rr => [m.pair (.bank rr)]
  | ldAFrom nn => [nn]
  | ldPairFrom _ nn => [nn, nn + 1]
  | pop _ | ret _ | retn | exSp _ => [m.regs.sp, m.regs.sp + 1]
  | rld | rrd | block .load _ _ | block .compare _ _ | block .output _ _ => [m.hl]
  | _ => []

/-- The port that an instruction reads. -/
def portSources (m : Machine) : Instr → List Word
  | inA n => [Word.ofBytes m.a n]
  | inC _ | block .input _ _ => [m.bc]
  | _ => []

end Instr

namespace Machine

/-- Run on the registers of `m`, `f` reads no memory but `cells` and no port but
    `ports`: over any spaces that agree there it leaves the same registers and writes
    the same bytes. -/
def ReadsOnly (m : Machine) (f : Machine → Machine) (cells ports : List Word) : Prop :=
  ∃ stored sent, ∀ k : Machine,
    (∀ a ∈ cells, k.mem.get a = m.mem.get a) → (∀ p ∈ ports, k.ports.get p = m.ports.get p) →
    f (m.onto k) = (f m).onto (k.patch stored sent)

variable {m : Machine} {f : Machine → Machine} {cells ports : List Word}

theorem readsOnly_of_registers (h : ∀ k, f (m.onto k) = (f m).onto k) :
    m.ReadsOnly f cells ports :=
  ⟨[], [], fun k _ _ => h k⟩

theorem readsOnly_block (op : BlockOp) (dir : Direction) (repeats : Bool) :
    m.ReadsOnly (·.block op dir) ((Instr.block op dir repeats).sources m)
      ((Instr.block op dir repeats).portSources m) := by
  cases op with
  | load =>
    refine ⟨[(m.de, m.mem.get m.hl)], [], fun k hmem _ => ?_⟩
    have hv : (m.onto k).mem.get (m.onto k).hl = m.mem.get m.hl :=
      hmem m.hl (List.mem_singleton.mpr rfl)
    simp only [block, blockLoad, hv]
    rfl
  | compare =>
    refine ⟨[], [], fun k hmem _ => ?_⟩
    have hv : (m.onto k).mem.get (m.onto k).hl = m.mem.get m.hl :=
      hmem m.hl (List.mem_singleton.mpr rfl)
    simp only [block, blockCompare, hv]
    rfl
  | input =>
    refine ⟨[(m.hl, m.ports.get m.bc)], [], fun k _ hports => ?_⟩
    have hv : (m.onto k).ports.get (m.onto k).bc = m.ports.get m.bc :=
      hports m.bc (List.mem_singleton.mpr rfl)
    simp only [block, blockInput, hv]
    rfl
  | output =>
    refine ⟨[], [(Word.ofBytes (m.reg .b - 1) (m.reg .c), m.mem.get m.hl)], fun k hmem _ => ?_⟩
    have hv : (m.onto k).mem.get (m.onto k).hl = m.mem.get m.hl :=
      hmem m.hl (List.mem_singleton.mpr rfl)
    simp only [block, blockOutput, hv]
    rfl

/-- A call reads neither memory nor ports. -/
theorem readsOnly_callIf (taken : Bool) (target : Word) :
    m.ReadsOnly (·.callIf taken target) cells ports := by
  cases taken with
  | false => exact readsOnly_of_registers fun k => rfl
  | true =>
    exact ⟨[(m.regs.sp - 2, m.pc.lo), (m.regs.sp - 2 + 1, m.pc.hi)], [], fun k _ _ => rfl⟩

theorem getWord_onto {a : Word} {k : Machine}
    (h : ∀ b ∈ [a, a + 1], k.mem.get b = m.mem.get b) : k.mem.getWord a = m.mem.getWord a := by
  rw [Space.getWord, Space.getWord, h a (by simp), h (a + 1) (by simp)]

/-- What an instruction reads decides all that it does. -/
theorem readsOnly_effect (m : Machine) (i : Instr) (taken : Bool) :
    m.ReadsOnly (i.effect taken) (i.sources m) (i.portSources m) := by
  -- the cells written are those of the run on `m` itself; over other spaces the bytes
  -- read are replaced by those of `m` before anything else
  cases i with
  | ld dst src =>
    refine ⟨(m.address? dst).toList.map (·, m.read src), [], fun k hmem _ => ?_⟩
    show (m.onto k).write dst ((m.onto k).read src) = _
    rw [read_onto hmem]
    exact write_onto m k dst (m.read src)
  | ldByte dst n =>
    exact ⟨(m.address? dst).toList.map (·, n), [], fun k _ _ => write_onto m k dst n⟩
  | ldAFromPair rr =>
    refine ⟨[], [], fun k hmem _ => ?_⟩
    show (m.onto k).setA (k.mem.get (m.pair (.bank rr))) = _
    rw [hmem _ (List.mem_singleton.mpr rfl)]
    rfl
  | ldAToPair rr => exact ⟨[(m.pair (.bank rr), m.a)], [], fun k _ _ => rfl⟩
  | ldAFrom nn =>
    refine ⟨[], [], fun k hmem _ => ?_⟩
    show (m.onto k).setA (k.mem.get nn) = _
    rw [hmem _ (List.mem_singleton.mpr rfl)]
    rfl
  | ldATo nn => exact ⟨[(nn, m.a)], [], fun k _ _ => rfl⟩
  | ldWord rr nn => exact readsOnly_of_registers fun k => setPair_onto m k rr nn
  | ldPairFrom rr nn =>
    refine ⟨[], [], fun k hmem _ => ?_⟩
    show (m.onto k).setPair rr (k.mem.getWord nn) = _
    rw [getWord_onto hmem, setPair_onto]
    rfl
  | ldPairTo rr nn =>
    refine ⟨[(nn, (m.pair rr).lo), (nn + 1, (m.pair rr).hi)], [], fun k _ _ => ?_⟩
    show (m.onto k).storeWord nn ((m.onto k).pair rr) = _
    rw [pair_onto, storeWord_onto]
    rfl
  | ldSp rr =>
    refine readsOnly_of_registers fun k => ?_
    show (m.onto k).setPair .sp ((m.onto k).pair rr) = _
    rw [pair_onto, setPair_onto]
    rfl
  | push rr =>
    refine ⟨[(m.regs.sp - 2, (m.pair rr).lo), (m.regs.sp - 2 + 1, (m.pair rr).hi)], [],
      fun k _ _ => ?_⟩
    show (m.onto k).push ((m.onto k).pair rr) = _
    rw [pair_onto, push_onto]
    rfl
  | pop rr =>
    refine ⟨[], [], fun k hmem _ => ?_⟩
    show (m.drop.onto k).setPair rr (k.mem.getWord m.regs.sp) = _
    rw [getWord_onto hmem, setPair_onto]
    rfl
  | exSp rr =>
    refine ⟨[(m.regs.sp, (m.pair rr).lo), (m.regs.sp + 1, (m.pair rr).hi)], [],
      fun k hmem _ => ?_⟩
    show ((m.onto k).storeWord m.regs.sp ((m.onto k).pair rr)).setPair rr
      (k.mem.getWord m.regs.sp) = _
    rw [getWord_onto hmem, pair_onto, storeWord_onto, setPair_onto]
    rfl
  | alu op src =>
    refine ⟨[], [], fun k hmem _ => ?_⟩
    show (m.onto k).alu op ((m.onto k).read src) = _
    rw [read_onto hmem]
    rfl
  | inc dst =>
    refine ⟨(m.address? dst).toList.map (·, m.read dst + 1), [], fun k hmem _ => ?_⟩
    show (m.onto k).replace dst ((m.onto k).read dst + 1) (incFlags ((m.onto k).read dst) m.flags) = _
    rw [read_onto hmem, replace, write_onto]
    rfl
  | dec dst =>
    refine ⟨(m.address? dst).toList.map (·, m.read dst - 1), [], fun k hmem _ => ?_⟩
    show (m.onto k).replace dst ((m.onto k).read dst - 1) (decFlags ((m.onto k).read dst) m.flags) = _
    rw [read_onto hmem, replace, write_onto]
    rfl
  | rot op target copy =>
    refine ⟨(m.address? target).toList.map (·, (op.apply (m.read target) m.flags.c).1), [],
      fun k hmem _ => ?_⟩
    show (m.onto k).rotate op target copy = _
    rw [rotate, read_onto hmem, write_onto, copyTo_onto]
    rfl
  | res n target copy =>
    let v := m.read target &&& ~~~((1 : Byte) <<< n.val.toUInt8)
    refine ⟨(m.address? target).toList.map (·, v), [], fun k hmem _ => ?_⟩
    dsimp only [Instr.effect]
    rw [read_onto hmem, write_onto, copyTo_onto]
  | set n target copy =>
    let v := m.read target ||| ((1 : Byte) <<< n.val.toUInt8)
    refine ⟨(m.address? target).toList.map (·, v), [], fun k hmem _ => ?_⟩
    dsimp only [Instr.effect]
    rw [read_onto hmem, write_onto, copyTo_onto]
  | bit n src =>
    refine ⟨[], [], fun k hmem _ => ?_⟩
    dsimp only [Instr.effect]
    rw [read_onto hmem]
    rfl
  | addPair dst src =>
    refine readsOnly_of_registers fun k => ?_
    dsimp only [Instr.effect]
    rw [pair_onto, pair_onto, setFlags_onto, setPair_onto]
    rfl
  | adcHl src =>
    refine readsOnly_of_registers fun k => ?_
    dsimp only [Instr.effect]
    rw [pair_onto]
    rfl
  | sbcHl src =>
    refine readsOnly_of_registers fun k => ?_
    dsimp only [Instr.effect]
    rw [pair_onto]
    rfl
  | incPair rr =>
    refine readsOnly_of_registers fun k => ?_
    dsimp only [Instr.effect]
    rw [pair_onto, setPair_onto]
  | decPair rr =>
    refine readsOnly_of_registers fun k => ?_
    dsimp only [Instr.effect]
    rw [pair_onto, setPair_onto]
  | rld =>
    refine ⟨[(m.hl, (rotateDigitsLeft m.a (m.mem.get m.hl)).2)], [], fun k hmem _ => ?_⟩
    show (m.onto k).rotateDigits (rotateDigitsLeft m.a (k.mem.get m.hl)) = _
    rw [hmem _ (List.mem_singleton.mpr rfl)]
    rfl
  | rrd =>
    refine ⟨[(m.hl, (rotateDigitsRight m.a (m.mem.get m.hl)).2)], [], fun k hmem _ => ?_⟩
    show (m.onto k).rotateDigits (rotateDigitsRight m.a (k.mem.get m.hl)) = _
    rw [hmem _ (List.mem_singleton.mpr rfl)]
    rfl
  | jp cc? nn => exact readsOnly_of_registers fun k => jumpIf_onto m k taken nn
  | jpPair rr =>
    refine readsOnly_of_registers fun k => ?_
    dsimp only [Instr.effect]
    rw [pair_onto]
    rfl
  | jr cc? d => exact readsOnly_of_registers fun k => jumpIf_onto m k taken _
  | djnz d => exact readsOnly_of_registers fun k => jumpIf_onto (m.setReg .b (m.reg .b - 1)) k taken _
  | call cc? nn => exact readsOnly_callIf taken nn
  | ret cc? =>
    cases taken with
    | false => exact readsOnly_of_registers fun k => rfl
    | true =>
      refine ⟨[], [], fun k hmem _ => ?_⟩
      show (m.drop.onto k).setPc (k.mem.getWord m.regs.sp) = _
      rw [getWord_onto hmem]
      rfl
  | retn =>
    refine ⟨[], [], fun k hmem _ => ?_⟩
    show { m.drop.onto k with
      regs := { m.drop.regs with pc := k.mem.getWord m.regs.sp, iff1 := m.regs.iff2 } } = _
    rw [getWord_onto hmem]
    rfl
  | rst target => exact readsOnly_callIf true target.toUInt16
  | inA n =>
    refine ⟨[], [], fun k _ hports => ?_⟩
    show (m.onto k).setA (k.ports.get (Word.ofBytes m.a n)) = _
    rw [hports _ (List.mem_singleton.mpr rfl)]
    rfl
  | outA n => exact ⟨[], [(Word.ofBytes m.a n, m.a)], fun k _ _ => rfl⟩
  | inC r =>
    refine ⟨[], [], fun k _ hports => ?_⟩
    have hv : (m.onto k).ports.get (m.onto k).bc = m.ports.get m.bc :=
      hports _ (List.mem_singleton.mpr rfl)
    dsimp only [Instr.effect]
    rw [hv]
    rfl
  | outC r => exact ⟨[], [(m.bc, m.reg r)], fun k _ _ => rfl⟩
  | block op dir repeats =>
    obtain ⟨stored, sent, h⟩ := readsOnly_block (m := m) op dir repeats
    refine ⟨stored, sent, fun k hmem hports => ?_⟩
    have hblock : (m.onto k).block op dir = (m.block op dir).onto (k.patch stored sent) :=
      h k hmem hports
    show ((m.onto k).block op dir).jumpIf taken (m.pc - 2) = _
    rw [hblock, jumpIf_onto]
    rfl
  | _ => exact readsOnly_of_registers fun k => rfl

/-! ## One step -/

theorem sources_fetch (m : Machine) (d : Decoded) (i : Instr) :
    i.sources (m.fetch d) = i.sources m := by
  cases i with
  | block op dir repeats => cases op <;> rfl
  | ld dst src => exact congrArg Option.toList (address?_fetch m d src)
  | alu op src => exact congrArg Option.toList (address?_fetch m d src)
  | bit n src => exact congrArg Option.toList (address?_fetch m d src)
  | inc dst => exact congrArg Option.toList (address?_fetch m d dst)
  | dec dst => exact congrArg Option.toList (address?_fetch m d dst)
  | rot op target copy => exact congrArg Option.toList (address?_fetch m d target)
  | res n target copy => exact congrArg Option.toList (address?_fetch m d target)
  | set n target copy => exact congrArg Option.toList (address?_fetch m d target)
  | _ => rfl

theorem portSources_fetch (m : Machine) (d : Decoded) (i : Instr) :
    i.portSources (m.fetch d) = i.portSources m := by
  cases i with
  | block op dir repeats => cases op <;> rfl
  | _ => rfl

/-- Whether a block compare goes on is decided by the cell that it reads. -/
theorem taken_onto {k : Machine} (i : Instr)
    (h : ∀ a ∈ i.sources m, k.mem.get a = m.mem.get a) : i.taken (m.onto k) = i.taken m := by
  cases i with
  | block op dir repeats =>
    cases op with
    | compare =>
      have hv : (m.onto k).mem.get (m.onto k).hl = m.mem.get m.hl :=
        h m.hl (List.mem_singleton.mpr rfl)
      simp only [Instr.taken, blockContinues, hv]
      rfl
    | _ => rfl
  | _ => rfl

/-- The cells that the next step reads. -/
def readCells (m : Machine) : List Word :=
  if m.halted then []
  else [m.pc, m.pc + 1, m.pc + 2, m.pc + 3] ++ m.current.instr.sources m

/-- The port that the next step reads. -/
def inputCells (m : Machine) : List Word :=
  if m.halted then [] else m.current.instr.portSources m

theorem current_onto {k : Machine}
    (h : ∀ a ∈ [m.pc, m.pc + 1, m.pc + 2, m.pc + 3], k.mem.get a = m.mem.get a) :
    (m.onto k).current = m.current := by
  show decode (k.mem.get m.pc) (k.mem.get (m.pc + 1)) (k.mem.get (m.pc + 2))
    (k.mem.get (m.pc + 3)) = _
  rw [h m.pc (by simp), h (m.pc + 1) (by simp), h (m.pc + 2) (by simp), h (m.pc + 3) (by simp)]
  rfl

/-- With the same bytes to read, the same instruction is fetched and has its effect. -/
theorem step_onto {m k : Machine} (h : m.halted = false)
    (hmem : ∀ a ∈ m.readCells, k.mem.get a = m.mem.get a) :
    (m.onto k).step = { m.current.instr.effect (m.current.instr.taken (m.fetch m.current))
        ((m.fetch m.current).onto k) with cycles := m.step.cycles } := by
  rw [readCells, h, if_neg Bool.false_ne_true] at hmem
  have hcurrent : (m.onto k).current = m.current :=
    current_onto fun a ha => hmem a (List.mem_append_left _ ha)
  -- a fetch moves neither memory nor what the instruction points at
  have htaken : m.current.instr.taken ((m.fetch m.current).onto k) =
      m.current.instr.taken (m.fetch m.current) := by
    apply taken_onto
    rw [sources_fetch]
    exact fun a ha => hmem a (List.mem_append_right _ ha)
  rw [step_of_running h, step_of_running (m := m.onto k) h, hcurrent, execute, execute]
  dsimp only
  rw [show (m.onto k).fetch m.current = (m.fetch m.current).onto k from rfl, htaken]

/-- A step depends on nothing in memory and in the ports but what it reads: over any
    spaces that agree there it takes the same time, leaves the same registers and
    writes the same bytes. -/
theorem exists_step_onto (m : Machine) : ∃ stored sent, ∀ k : Machine,
    (∀ a ∈ m.readCells, k.mem.get a = m.mem.get a) →
    (∀ p ∈ m.inputCells, k.ports.get p = m.ports.get p) →
    (m.onto k).step = { m.step.onto (k.patch stored sent) with cycles := m.step.cycles } := by
  cases h : m.halted with
  | true =>
    refine ⟨[], [], fun k _ _ => ?_⟩
    rw [step_of_halted h, step_of_halted (m := m.onto k) h]
    rfl
  | false =>
    obtain ⟨stored, sent, heffect⟩ := readsOnly_effect (m.fetch m.current) m.current.instr
      (m.current.instr.taken (m.fetch m.current))
    rw [sources_fetch, portSources_fetch] at heffect
    refine ⟨stored, sent, fun k hmem hports => ?_⟩
    rw [step_onto h hmem]
    rw [readCells, h, if_neg Bool.false_ne_true] at hmem
    rw [inputCells, h, if_neg Bool.false_ne_true] at hports
    rw [heffect k (fun a ha => hmem a (List.mem_append_right _ ha)) hports, step_of_running h]
    rfl

end Machine

end Z80
