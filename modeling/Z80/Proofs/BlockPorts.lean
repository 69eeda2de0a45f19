/-
  Z80.Proofs.BlockPorts

  INIR, OTIR and their kin.

  B counts the bytes down and is the high byte of the port number at once, so a run goes
  from port to port: input reads before B counts, output writes after
  (`Machine.inputs`, `Machine.outputs`).  The main statement is `runsBlock_ports`: how often
  the instruction is executed, what has been moved after each step, and the whole machine
  afterwards.
-/

import Z80.Proofs.BlockRuns

namespace Z80

/-- A list of writes ends with its last one. -/
theorem Space.write_concat (s : Space) (cells : List (Word × Byte)) (a : Word) (v : Byte) :
    s.write (cells ++ [(a, v)]) = (s.write cells).set a v := by
  rw [write, List.foldl_append]
  rfl

namespace Machine

variable (m : Machine) (dir : Direction)

/-! ## The bytes moved -/

/-- The port that BC names when B has counted down `i` times. -/
def port (i : Nat) : Word :=
  Word.ofBytes (m.reg .b - i.toUInt8) (m.reg .c)

/-- The first `n` bytes of an input: the cells from HL on, each with the byte of its port. -/
def inputs (n : Nat) : List (Word × Byte) :=
  (List.range n).map fun i => (dir.along m.hl i, m.ports.get (m.port i))

/-- The first `n` bytes of an output: the ports, each with the byte of its cell. -/
def outputs (n : Nat) : List (Word × Byte) :=
  (List.range n).map fun i => (m.port (i + 1), m.mem.get (dir.along m.hl i))

theorem inputs_succ (n : Nat) :
    m.inputs dir (n + 1) = m.inputs dir n ++ [(dir.along m.hl n, m.ports.get (m.port n))] := by
  rw [inputs, List.range_succ, List.map_append]
  rfl

theorem outputs_succ (n : Nat) : m.outputs dir (n + 1) =
    m.outputs dir n ++ [(m.port (n + 1), m.mem.get (dir.along m.hl n))] := by
  rw [outputs, List.range_succ, List.map_append]
  rfl

/-! ## Rounds -/

theorem bc_rounds_port {op : BlockOp} (hop : op = .input ∨ op = .output) (n : Nat) :
    (rounds op dir n m).bc = m.port n := by
  have hb : m.bc.hi = m.reg .b := Word.hi_ofBytes _ _
  have hc : m.bc.lo = m.reg .c := Word.lo_ofBytes _ _
  rw [bc_rounds]
  obtain rfl | rfl := hop <;> rw [BlockOp.counter, hb, hc, port]

theorem b_rounds {op : BlockOp} (hop : op = .input ∨ op = .output) (n : Nat) :
    (rounds op dir n m).reg .b = m.reg .b - n.toUInt8 := by
  have hb : (rounds op dir n m).bc.hi = (rounds op dir n m).reg .b := Word.hi_ofBytes _ _
  rw [← hb, bc_rounds_port m dir hop, port, Word.hi_ofBytes]

theorem mem_rounds_input (n : Nat) :
    (rounds .input dir n m).mem = m.mem.write (m.inputs dir n) := by
  induction n with
  | zero => rfl
  | succ n ih =>
    show (rounds .input dir n m).mem.set (rounds .input dir n m).hl
      ((rounds .input dir n m).ports.get (rounds .input dir n m).bc) = _
    rw [ih, hl_rounds, ports_rounds m dir (by decide), bc_rounds_port m dir (.inl rfl),
      inputs_succ, Space.write_concat]

theorem ports_rounds_output (n : Nat) :
    (rounds .output dir n m).ports = m.ports.write (m.outputs dir n) := by
  induction n with
  | zero => rfl
  | succ n ih =>
    have hbyte : (rounds .output dir n m).mem.get (rounds .output dir n m).hl =
        m.mem.get (dir.along m.hl n) := by
      rw [mem_rounds m dir (.inr rfl), hl_rounds]
    have hport : Word.ofBytes ((rounds .output dir n m).reg .b - 1)
        ((rounds .output dir n m).reg .c) = m.port (n + 1) := by
      have hc : (rounds .output dir n m).reg .c = (rounds .output dir n m).bc.lo :=
        (Word.lo_ofBytes _ _).symm
      rw [hc, b_rounds m dir (.inr rfl), bc_rounds_port m dir (.inr rfl), port, port,
        Word.lo_ofBytes, Byte.sub_succ]
    show (rounds .output dir n m).ports.set _ _ = _
    rw [ih, hbyte, hport, outputs_succ, Space.write_concat]

/-- S, Z, Y and X show what is left in B. -/
theorem flags_rounds_ports {op : BlockOp} (hop : op = .input ∨ op = .output) (n : Nat) :
    ∃ v k, (rounds op dir (n + 1) m).flags = blockIoFlags (m.reg .b - (n + 1).toUInt8) v k := by
  have hcount : (rounds op dir n m).reg .b - 1 = m.reg .b - (n + 1).toUInt8 := by
    rw [b_rounds m dir hop, Byte.sub_succ]
  rw [← hcount]
  obtain rfl | rfl := hop
  · exact ⟨_, _, rfl⟩
  · exact ⟨_, _, rfl⟩

theorem blockContinues_rounds_ports {op : BlockOp} (hop : op = .input ∨ op = .output) {i : Nat}
    (hi : i < (m.reg .b).turns) :
    (rounds op dir i m).blockContinues op = (i + 1 != (m.reg .b).turns) := by
  rw [← (m.reg .b).counted hi, ← b_rounds m dir hop]
  obtain rfl | rfl := hop
  · rfl
  · rfl

/-! ## Runs -/

/-- What a run through the ports leaves of a machine beside what it has moved: B is zero
    and F shows it, C is kept, and HL has moved as far as B counted. -/
structure CountedDown (m : Machine) (dir : Direction) (after : Machine) : Prop where
  pc : after.pc = m.pc + 2
  b : after.reg .b = 0
  c : after.reg .c = m.reg .c
  hl : after.hl = dir.along m.hl (m.reg .b).turns
  z : after.flags.z = true
  s : after.flags.s = false
  y : after.flags.y = false
  x : after.flags.x = false

variable {m dir} in
theorem RunsBlock.countedDown {op : BlockOp} (hop : op = .input ∨ op = .output)
    (hruns : m.RunsBlock op dir (m.reg .b).turns)
    (hflags : (steps (m.reg .b).turns m).flags = (rounds op dir (m.reg .b).turns m).flags) :
    m.CountedDown dir (steps (m.reg .b).turns m) := by
  have hbc : (steps (m.reg .b).turns m).bc = Word.ofBytes 0 (m.reg .c) := by
    rw [hruns.bc, ← bc_rounds m op dir, bc_rounds_port m dir hop, port, Byte.sub_turns]
  have hhalves : (steps (m.reg .b).turns m).bc =
      Word.ofBytes ((steps (m.reg .b).turns m).reg .b)
        ((steps (m.reg .b).turns m).reg .c) := rfl
  -- S, Z, Y and X are those of the last round, which has left zero in B
  obtain ⟨k, hk⟩ : ∃ k, (m.reg .b).turns = k + 1 :=
    Nat.exists_eq_add_one.mpr (m.reg .b).turns_pos
  obtain ⟨v, sum, hlast⟩ := flags_rounds_ports m dir hop k
  rw [← hk, (m.reg .b).sub_turns, ← hflags] at hlast
  have hhigh := congrArg Word.hi (hhalves.symm.trans hbc)
  have hlow := congrArg Word.lo (hhalves.symm.trans hbc)
  rw [Word.hi_ofBytes, Word.hi_ofBytes] at hhigh
  rw [Word.lo_ofBytes, Word.lo_ofBytes] at hlow
  exact {
    pc := hruns.pc
    b := hhigh
    c := hlow
    hl := hruns.hl
    z := by rw [hlast]; rfl
    s := by rw [hlast]; rfl
    y := by rw [hlast]; rfl
    x := by rw [hlast]; rfl }

/-- Block output, and block input if no byte but the last one changes the two bytes of the
    instruction.  Each is executed as often as B says.  After `i` steps an output has
    written the first `i` cells from HL on to the ports that BC names when B has counted,
    and an input has filled those cells from the ports that BC names before; neither
    changes the other space. -/
theorem runsBlock_ports (m : Machine) (dir : Direction) :
    let n := (m.reg .b).turns
    (m.AtBlock .output dir →
      m.RunsBlock .output dir n ∧
      m.CountedDown dir (steps n m) ∧
      ∀ i ≤ n, (steps i m).mem = m.mem ∧
        (steps i m).ports = m.ports.write (m.outputs dir i)) ∧
    (m.AtBlock .input dir →
      (∀ i < n, ∀ a ∈ [m.pc, m.pc + 1], (m.mem.write (m.inputs dir i)).get a = m.mem.get a) →
      m.RunsBlock .input dir n ∧
      m.CountedDown dir (steps n m) ∧
      ∀ i ≤ n, (steps i m).mem = m.mem.write (m.inputs dir i) ∧
        (steps i m).ports = m.ports) := by
  intro n
  constructor
  · intro hat
    obtain ⟨hruns, hrounds⟩ := runsBlock (m.reg .b).turns_pos hat
      (fun i _ a _ => by rw [mem_rounds m dir (.inr rfl)])
      fun i hi => blockContinues_rounds_ports m dir (.inr rfl) hi
    refine ⟨hruns, hruns.countedDown (.inr rfl) (hrounds n (Nat.le_refl n)).2.2, fun i hi => ?_⟩
    obtain ⟨hmem, hports, -⟩ := hrounds i hi
    exact ⟨hmem.trans (mem_rounds m dir (.inr rfl) i), hports.trans (ports_rounds_output m dir i)⟩
  · intro hat hstands
    obtain ⟨hruns, hrounds⟩ := runsBlock (m.reg .b).turns_pos hat
      (fun i hi => by
        rw [mem_rounds_input]
        exact hstands i hi)
      fun i hi => blockContinues_rounds_ports m dir (.inl rfl) hi
    refine ⟨hruns, hruns.countedDown (.inl rfl) (hrounds n (Nat.le_refl n)).2.2, fun i hi => ?_⟩
    obtain ⟨hmem, hports, -⟩ := hrounds i hi
    exact ⟨hmem.trans (mem_rounds_input m dir i), hports.trans (ports_rounds m dir (by decide) i)⟩

/-- OTIR and INDR of two bytes: the first byte goes to port 0110h and comes from port
    0210h. -/
theorem runsBlock_ports_atCode :
    let out := (((atCode 0x4000 [0xED, 0xB3]).store 0xFFFF 0x2A).setPair (.bank .hl)
      0xFFFF).setPair (.bank .bc) 0x0210
    let inp := (((atCode 0x4000 [0xED, 0xBA]).output 0x0210 0x55).setPair (.bank .hl)
      0x8000).setPair (.bank .bc) 0x0210
    out.AtBlock .output .up ∧ out.RunsBlock .output .up 2 ∧
      (steps 1 out).ports.get 0x0110 = 0x2A ∧
    inp.AtBlock .input .down ∧ inp.RunsBlock .input .down 2 ∧
      (steps 1 inp).mem.get 0x8000 = 0x55 := by
  intro out inp
  have hmem : out.mem = ((Space.zero.set 0x4000 0xED).set 0x4001 0xB3).set 0xFFFF 0x2A := rfl
  have hmem' : inp.mem = (Space.zero.set 0x4000 0xED).set 0x4001 0xBA := rfl
  have hports : inp.ports = Space.zero.set 0x0210 0x55 := rfl
  have hrunning : out.halted = false := rfl
  have hrunning' : inp.halted = false := rfl
  have hpc : out.pc = 0x4000 := rfl
  have hpc' : inp.pc = 0x4000 := rfl
  have hhl : out.hl = 0xFFFF := Word.ofBytes_hi_lo 0xFFFF
  have hhl' : inp.hl = 0x8000 := Word.ofBytes_hi_lo 0x8000
  have hb : out.reg .b = 2 := rfl
  have hb' : inp.reg .b = 2 := rfl
  have hc : out.reg .c = 0x10 := rfl
  have hc' : inp.reg .c = 0x10 := rfl
  clear_value out inp
  have hturns : (out.reg .b).turns = 2 := by rw [hb]; decide
  have hturns' : (inp.reg .b).turns = 2 := by rw [hb']; decide
  have hfirst : out.outputs .up 1 = [(0x0110, 0x2A)] := by
    have hport : out.port 1 = 0x0110 := by rw [port, hb, hc]; decide
    show [(out.port 1, out.mem.get (Direction.along .up out.hl 0))] = _
    rw [hport, Direction.along_zero, hhl, hmem, Space.get_set_self]
  have hfirst' : inp.inputs .down 1 = [(0x8000, 0x55)] := by
    have hport : inp.port 0 = 0x0210 := by rw [port, hb', hc']; decide
    show [(Direction.along .down inp.hl 0, inp.ports.get (inp.port 0))] = _
    rw [hport, Direction.along_zero, hhl', hports, Space.get_set_self]
  have hblock : out.AtBlock .output .up := by
    refine ⟨hrunning, ?_, ?_⟩
    · simp [hmem, hpc, Space.get_set]
    · simp [hmem, hpc, Space.get_set, BlockOp.code]
  have hblock' : inp.AtBlock .input .down := by
    refine ⟨hrunning', ?_, ?_⟩
    · simp [hmem', hpc', Space.get_set]
    · simp [hmem', hpc', BlockOp.code]
  obtain ⟨hruns, -, hmoved⟩ := (runsBlock_ports out .up).1 hblock
  obtain ⟨hruns', -, hmoved'⟩ := (runsBlock_ports inp .down).2 hblock' fun i hi a ha => by
    have hi : i = 0 ∨ i = 1 := by omega
    obtain rfl | rfl := hi
    · rfl
    · rw [hfirst']
      refine Space.get_set_of_ne _ _ ?_
      simp only [hpc', List.mem_cons, List.not_mem_nil, or_false] at ha
      obtain rfl | rfl := ha <;> decide
  rw [hturns] at hruns hmoved
  rw [hturns'] at hruns' hmoved'
  refine ⟨hblock, hruns, ?_, hblock', hruns', ?_⟩
  · rw [(hmoved 1 (by decide)).2, hfirst]
    exact Space.get_set_self _ _ _
  · rw [(hmoved' 1 (by decide)).1, hfirst']
    exact Space.get_set_self _ _ _

/-- Halted at OTIR with one byte to write: no step gets behind the instruction. -/
theorem stuck_at_output :
    let m := { (atCode 0 [0xED, 0xB3]).setReg .b 1 with halted := true }
    m.mem.get m.pc = 0xED ∧ m.mem.get (m.pc + 1) = BlockOp.code .output .up ∧
      (m.reg .b).turns = 1 ∧
      ∀ n, (steps n m).pc ≠ m.pc + 2 := by
  intro m
  have hcode : m.mem = (Space.zero.set 0 0xED).set 1 0xB3 := rfl
  have hat : m.pc = 0 := rfl
  have hhalted : m.halted = true := rfl
  have hb : m.reg .b = 1 := rfl
  clear_value m
  refine ⟨?_, ?_, ?_, pc_steps_of_halted hhalted⟩
  · simp [hcode, hat, Space.get_set]
  · simp [hcode, hat, BlockOp.code]
  · rw [hb]
    decide

end Machine

end Z80
