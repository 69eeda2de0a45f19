/-
  Z80.Proofs.ProgramRuns

  What a program does from its command line to its report.

  A program merges three layers of settings: its options, the file of its settings and the
  defaults.  An image that is not there, is empty or does not fit the space keeps it from
  running (`machine_of_fault`).  Any other is all that the memory of its machine holds
  (`machine_of_fits`).  This machine is run from its entry point on until its first halt or the
  limit, and what is reported is the machine after that many steps, with the reason, the steps
  and the T-states.

  The main statement, `report_configured`, holds for all formats of arguments, documents and
  states.
-/

import Z80.Proofs.Configuration
import Z80.Proofs.ImageLoading
import Z80.Proofs.Reports
import Z80.Proofs.Runs

namespace Z80

/-! ## Images -/

/-- What is wrong with a file as an image. -/
inductive ImageFault : Except FileError ByteArray → ImageError → Prop where
  | unreadable (e : FileError) : ImageFault (.error e) (.io e)
  | empty {bytes : ByteArray} (h : bytes.size = 0) : ImageFault (.ok bytes) .empty
  | tooLarge {bytes : ByteArray} (h : 65536 < bytes.size) :
    ImageFault (.ok bytes) (.tooLarge bytes.size)

namespace Space

/-- A space holds the bytes of an image from an address on, around the end, and zeros
    elsewhere. -/
structure HoldsImage (s : Space) (a : Word) (bytes : ByteArray) : Prop where
  image : ∀ i (hi : i < bytes.size), s.get (a + i.toUInt16) = bytes[i]
  rest : ∀ x, (∀ i < bytes.size, x ≠ a + i.toUInt16) → s.get x = 0

variable {s : Space} {a : Word} {bytes : ByteArray} {e : ImageError}

theorem holdsImage_load (a : Word) (h : bytes.size ≤ 65536) :
    (zero.load a bytes.data.toList).HoldsImage a bytes where
  image _ hi := get_load_of_fits zero a (show bytes.data.toList.length ≤ 65536 from h) hi
  rest x hx := (get_load_of_ne zero a x hx).trans (get_zero x)

theorem loadImage_of_fault {contents : Except FileError ByteArray} (s : Space) (a : Word)
    (h : ImageFault contents e) :
    s.loadImage a (contents.map fun bytes => bytes.data.toList) = .error e := by
  cases h with
  | unreadable e => rfl
  | @empty bytes h =>
    have hnil : bytes.data.toList = [] := List.eq_nil_of_length_eq_zero h
    show s.loadImage a (.ok bytes.data.toList) = _
    rw [hnil]
    rfl
  | @tooLarge bytes h =>
    have hrun := run_loadFile_tooLarge s a (show 65536 < bytes.data.toList.length from h)
    show s.loadImage a (.ok bytes.data.toList) = _
    rw [loadImage, hrun]
    rfl

theorem loadImage_of_fits (s : Space) (a : Word) (hne : 1 ≤ bytes.size)
    (h : bytes.size ≤ 65536) :
    s.loadImage a ((Except.ok bytes).map fun bytes => bytes.data.toList) =
      .ok (s.load a bytes.data.toList, bytes.size) := by
  have hrun := run_loadFile_of_fits s a (show 1 ≤ bytes.data.toList.length from hne) h
  show s.loadImage a (.ok bytes.data.toList) = _
  rw [loadImage, hrun]
  rfl

end Space

namespace Program

variable {formats : Formats} {c : CommandLine} {files : Files} {userSettings : Option String}
  {contents : Except FileError ByteArray} {bytes : ByteArray} {e : ImageError} {args : List String}

/-- A file that is no image gives no machine to run. -/
theorem machine_of_fault (s : Settings) (path : String) (h : ImageFault contents e) :
    machine s path contents = .error (.image path e) := by
  rw [machine, Space.loadImage_of_fault _ _ h]

/-- An image gives the machine at power-on with it in the memory and the entry point in the
    program counter. -/
theorem machine_of_fits (s : Settings) (path : String) (hne : 1 ≤ bytes.size)
    (h : bytes.size ≤ 65536) :
    machine s path (.ok bytes) = .ok { (Machine.initial s.clock).setPc s.entry with
      mem := Space.zero.load s.loadAddress bytes.data.toList } := by
  rw [machine, Space.loadImage_of_fits _ _ hne h]
  rfl

/-- What a program prepares once its settings are found. -/
theorem prepare_eq {s : Settings} (h : settings formats c files userSettings = .ok s) :
    prepare formats c files userSettings =
      (machine (c.apply s) c.image (files.read c.image)).map fun m => (c.apply s, m) := by
  rw [prepare, h]
  show (machine (c.apply s) c.image (files.read c.image)).bind _ = _
  cases machine (c.apply s) c.image (files.read c.image) <;> rfl

theorem errorReport_image (path : String) (e : ImageError) :
    errorReport (.image path e) =
      { exitCode := 1
        output := ""
        error := some ("z80emu: failed to load " ++ path ++ ": " ++ e.message) } := by
  have hfront : "z80emu: failed to load " = "z80emu: " ++ "failed to load " := by decide
  have hmessage : "z80emu: " ++ ProgramError.message (.image path e) =
      "z80emu: failed to load " ++ path ++ ": " ++ e.message := by
    show "z80emu: " ++ ("failed to load " ++ path ++ ": " ++ e.message) = _
    simp only [hfront, String.append_assoc]
  exact congrArg (fun message => Report.mk 1 "" (some message)) hmessage

theorem report_of_error {e : ProgramError} (hargs : formats.commandLine args = .ok c)
    (h : prepare formats c files userSettings = .error e) (wall : WallClock) (fuel : Nat) :
    report formats wall fuel files userSettings args = some (errorReport e) := by
  simp only [report, hargs, h]

theorem report_of_ok {s : Settings} {m : Machine} (hargs : formats.commandLine args = .ok c)
    (h : prepare formats c files userSettings = .ok (s, m)) (wall : WallClock) (fuel : Nat) :
    report formats wall fuel files userSettings args =
      (Runner.run wall s.maxSteps s.stopOnHalt fuel m).map (outcomeReport formats c) := by
  simp only [report, hargs, h]

/-- What is reported of a run is the machine after the steps after which it is to end. -/
theorem reported_of_run {wall : WallClock} {limit : Option UInt64} {stopOnHalt : Bool} {fuel : Nat}
    {m : Machine} {out : Outcome} (c : CommandLine)
    (h : Runner.run wall limit stopOnHalt fuel m = some out) :
    ∃ reason k steps cycles, Runner.Ends m (limit.map UInt64.toNat) stopOnHalt reason k ∧
      steps.toNat = k % 0x10000000000000000 ∧
      cycles.toNat = Machine.stepsTime k m % 0x10000000000000000 ∧
      Reported formats (Machine.steps k m) reason steps cycles c.dumpState
        (outcomeReport formats c out) := by
  obtain ⟨k, hends, hmachine, hsteps, hcycles⟩ := Runner.ends_run h
  refine ⟨out.reason, k, out.steps, out.cycles, hends, congrArg UInt64.toNat hsteps,
    congrArg UInt64.toNat hcycles, ?_⟩
  rw [← hmachine]
  exact reported_outcome formats c out

/-- Execution starts at the entry point that the command line says, else at that of the file,
    else where the image is loaded in the end. -/
theorem entry_apply (c : CommandLine) (g : Settings.Given) :
    (c.apply g.toSettings).entry =
      c.entry.getD (g.entryPoint.getD (c.loadAddress.getD (g.loadAddress.getD 0))) := by
  show (c.entry <|> g.entryPoint).getD _ = _
  cases c.entry <;> rfl

/-- What a program reports that finds settings, whatever the formats of its arguments, documents
    and states.

    Each setting is that of the command line, else that of the file, else the default, and the
    entry point is by default where the image is loaded in the end.  If the image is not there,
    is empty or does not fit the space, the program fails and makes no poll.  Otherwise it runs
    the machine at power-on whose memory holds the image and zeros, from the entry point on.
    What it prints is the machine after the steps after which the run is to end, and for which
    reason, how many steps and how many T-states in 64 bits.  The run comes to an end if it has a
    limit or the machine halts, provided that pauses take time. -/
theorem report_configured (formats : Formats) (c : CommandLine) (files : Files)
    (userSettings : Option String) (g : Settings.Given)
    (hgiven : Configured formats c files userSettings g) :
    let load := c.loadAddress.getD (g.loadAddress.getD 0)
    let entry := c.entry.getD (g.entryPoint.getD load)
    let clock : Clock :=
      { mhz := c.mhz.getD (g.mhz.getD Clock.defaultMhz)
        realtime := if c.fast then false else g.realtime.getD true }
    let maxSteps := c.maxSteps <|> g.maxSteps
    let stopOnHalt := if c.noStopOnHalt then false else g.stopOnHalt.getD true
    (∀ e, ImageFault (files.read c.image) e →
      prepare formats c files userSettings = .error (.image c.image e) ∧
      ∀ args, formats.commandLine args = .ok c → ∀ wall fuel,
        report formats wall fuel files userSettings args = some
          { exitCode := 1
            output := ""
            error := some ("z80emu: failed to load " ++ c.image ++ ": " ++ e.message) }) ∧
    ∀ bytes, files.read c.image = .ok bytes → 1 ≤ bytes.size → bytes.size ≤ 65536 →
      ∃ mem : Space, mem.HoldsImage load bytes ∧
        let m := { (Machine.initial clock).setPc entry with mem }
        ∀ args, formats.commandLine args = .ok c → ∀ wall,
          (∀ fuel, report formats wall fuel files userSettings args =
            (Runner.run wall maxSteps stopOnHalt fuel m).map (outcomeReport formats c)) ∧
          (∀ fuel r, report formats wall fuel files userSettings args = some r →
            ∃ reason k steps cycles,
              Runner.Ends m (maxSteps.map UInt64.toNat) stopOnHalt reason k ∧
              steps.toNat = k % 0x10000000000000000 ∧
              cycles.toNat = Machine.stepsTime k m % 0x10000000000000000 ∧
              Reported formats (Machine.steps k m) reason steps cycles c.dumpState r) ∧
          (0 < wall.pause → (maxSteps = none → ∃ h, m.HaltsAt h) →
            ∃ enough r, ∀ fuel, enough ≤ fuel →
              report formats wall fuel files userSettings args = some r) := by
  intro load entry clock maxSteps stopOnHalt
  -- the settings are found, so what is prepared depends on the image alone
  have hprepare := prepare_eq ((settings_eq_ok_iff ..).mpr ⟨g, hgiven, rfl⟩)
  refine ⟨fun e he => ?_, fun bytes hread hne hfits => ?_⟩
  · rw [machine_of_fault _ _ he] at hprepare
    refine ⟨hprepare, fun args hargs wall fuel => ?_⟩
    exact (report_of_error hargs hprepare wall fuel).trans
      (congrArg some (errorReport_image c.image e))
  · rw [hread, machine_of_fits _ _ hne hfits, entry_apply] at hprepare
    refine ⟨_, Space.holdsImage_load load hfits, ?_⟩
    intro m args hargs wall
    have hreport : ∀ fuel, report formats wall fuel files userSettings args =
        (Runner.run wall maxSteps stopOnHalt fuel m).map (outcomeReport formats c) :=
      report_of_ok hargs hprepare wall
    refine ⟨hreport, fun fuel r hr => ?_, fun hpause hends => ?_⟩
    · rw [hreport] at hr
      obtain ⟨out, hrun, rfl⟩ := Option.map_eq_some_iff.mp hr
      exact reported_of_run c hrun
    · obtain ⟨enough, out, hrun⟩ := Runner.exists_run m maxSteps stopOnHalt hpause hends
      refine ⟨enough, outcomeReport formats c out, fun fuel hfuel => ?_⟩
      rw [hreport, hrun fuel hfuel]
      rfl

/-- LD A,5 and HALT around the top of memory: the machine halts after two steps, and this is
    what is printed after a third. -/
theorem printedLines_around {mem : Space} (h₀ : mem.get 0xFFFF = 0x3E) (h₁ : mem.get 0 = 5)
    (h₂ : mem.get 1 = 0x76) :
    let m := { (Machine.initial {}).setPc 0xFFFF with mem }
    m.HaltsAt 2 ∧ Machine.stepsTime 3 m = 15 ∧
      printedLines (Machine.steps 3 m) .predicate 3 15 =
        "PC=0002 SP=FFFF AF=05FF BC=FFFF DE=FFFF HL=FFFF IX=FFFF IY=FFFF\n" ++
        "Predicate after 3 steps, 15 T-states\n" := by
  intro m
  let loaded := m.execute ⟨.ldByte (.reg .a) 5, 2, false⟩
  let halted := loaded.execute ⟨.halt, 1, false⟩
  have hload : m.step = loaded := by
    have haround : (0xFFFF : Word) + 1 = 0 ∧ (0xFFFF : Word) + 2 = 1 := by decide
    have hcurrent : m.current = ⟨.ldByte (.reg .a) 5, 2, false⟩ := by
      show decode (mem.get 0xFFFF) (mem.get (0xFFFF + 1)) (mem.get (0xFFFF + 2)) _ = _
      rw [haround.1, haround.2, h₀, h₁, h₂]
      rfl
    rw [Machine.step_of_running rfl, hcurrent]
  have hhalt : loaded.step = halted := by
    have hpc : (0xFFFF : Word) + (2 : Nat).toUInt16 = 1 := by decide
    have hcurrent : loaded.current = ⟨.halt, 1, false⟩ := by
      show decode (mem.get (0xFFFF + (2 : Nat).toUInt16)) _ _ _ = _
      rw [hpc, h₂]
      rfl
    rw [Machine.step_of_running rfl, hcurrent]
  have hsteps : Machine.steps 2 m = halted ∧ Machine.steps 3 m = halted.idle := by
    show m.step.step = halted ∧ m.step.step.step = halted.idle
    rw [hload, hhalt]
    exact ⟨rfl, Machine.step_of_halted rfl⟩
  obtain ⟨htwo, hthree⟩ := hsteps
  refine ⟨⟨?_, fun n hn => ?_⟩, ?_, ?_⟩
  · show (Machine.steps 2 m).halted = true
    rw [htwo]
    rfl
  · by_contra hlt
    obtain rfl | rfl : n = 0 ∨ n = 1 := by omega
    · cases (show m.halted = true from hn)
    · have hloaded : m.step.halted = true := hn
      rw [hload] at hloaded
      cases hloaded
  · show m.step.cycles + (m.step.step.cycles + (m.step.step.step.cycles + 0)) = 15
    rw [hload, hhalt, Machine.step_of_halted rfl]
    rfl
  · have hpc : halted.idle.pc = 2 := by
      show (0xFFFF : Word) + (2 : Nat).toUInt16 + (1 : Nat).toUInt16 = 2
      decide
    have hregs : halted.idle.regs.sp = Registers.initial.sp ∧
        halted.idle.regs.ix = Registers.initial.ix ∧ halted.idle.regs.iy = Registers.initial.iy ∧
        ∀ rr, halted.idle.pair (.bank rr) = { Registers.initial.main with a := 5 }.pair rr :=
      ⟨rfl, rfl, rfl, fun _ => rfl⟩
    obtain ⟨hsp, hix, hiy, hpairs⟩ := hregs
    rw [hthree, printedLines, hpc, hsp, hix, hiy, hpairs, hpairs, hpairs, hpairs]
    decide

/-- The command line overrides where the file says to load, and the entry point goes with it.
    The image passes the top of memory, so it does not start at the address of the file.  It
    halts after two steps, at which the file says not to stop.  An image that is not there is
    an error with the same settings. -/
theorem report_configured_around :
    let files : Files :=
      { read := fun path =>
          if path = "c.toml" then .ok "load_address = 256\nstop_on_halt = false".toUTF8
          else if path = "p.bin" then .ok ⟨#[0x3E, 0x05, 0x76]⟩
          else .error .notFound
        isFile := fun _ => false }
    (∀ wall fuel, report .standard wall fuel files none ["q.bin", "--config=c.toml"] = some
      { exitCode := 1
        output := ""
        error := some "z80emu: failed to load q.bin: IO error: No such file or directory (os error 2)" }) ∧
    ∀ wall : WallClock, 0 < wall.pause → ∃ enough, ∀ fuel, enough ≤ fuel →
      report .standard wall fuel files none
        ["p.bin", "--config", "c.toml", "--load-address", "0xFFFF", "--max-steps", "3"] = some
      { exitCode := 0
        output := "PC=0002 SP=FFFF AF=05FF BC=FFFF DE=FFFF HL=FFFF IX=FFFF IY=FFFF\n" ++
          "Predicate after 3 steps, 15 T-states\n"
        error := none } := by
  intro files
  let args := ["p.bin", "--config", "c.toml", "--load-address", "0xFFFF", "--max-steps", "3"]
  let c : CommandLine := ⟨"p.bin", some "c.toml", some 0xFFFF, none, some 3, none,
    false, false, false, false⟩
  let c' : CommandLine := ⟨"q.bin", some "c.toml", none, none, none, none,
    false, false, false, false⟩
  let g : Settings.Given := { loadAddress := some 256, stopOnHalt := some false }
  have htext (text : String) : String.fromUTF8? text.toUTF8 = some text :=
    dif_pos text.isValidUTF8
  have hg : Formats.standard.settings "load_address = 256\nstop_on_halt = false" = .ok g := by rfl
  have hc : Configured .standard c files none g := .file (.named rfl) rfl (htext _) hg
  have hc' : Configured .standard c' files none g := .file (.named rfl) rfl (htext _) hg
  obtain ⟨hfault, -⟩ := report_configured .standard c' files none g hc'
  obtain ⟨-, hruns⟩ := report_configured .standard c files none g hc
  refine ⟨(hfault _ (.unreadable .notFound)).2 _ rfl, fun wall hpause => ?_⟩
  obtain ⟨mem, hmem, hrun⟩ := hruns ⟨#[0x3E, 0x05, 0x76]⟩ rfl (by decide) (by decide)
  obtain ⟨-, hreported, hends⟩ := hrun args rfl wall
  obtain ⟨enough, r, hr⟩ := hends hpause (fun h => by cases h)
  refine ⟨enough, fun fuel hfuel => ?_⟩
  let m := { (Machine.initial {}).setPc 0xFFFF with mem }
  obtain ⟨reason, k, steps, cycles, hwhere, hsteps, hcycles, hshown⟩ :
      ∃ (reason : StopReason) (k : Nat) (steps cycles : UInt64),
        Runner.Ends m (some 3) false reason k ∧
        steps.toNat = k % 0x10000000000000000 ∧
        cycles.toNat = Machine.stepsTime k m % 0x10000000000000000 ∧
        Reported .standard (Machine.steps k m) reason steps cycles false r :=
    hreported fuel r (hr fuel hfuel)
  -- bytes 1 and 2 of the image lie at the start of memory
  have hbehind : (0xFFFF : Word) + (1 : Nat).toUInt16 = 0 := by decide
  have hnext : (0xFFFF : Word) + (2 : Nat).toUInt16 = 1 := by decide
  have h₁ : mem.get 0 = 5 := hbehind ▸ hmem.image 1 (by decide)
  have h₂ : mem.get 1 = 0x76 := hnext ▸ hmem.image 2 (by decide)
  obtain ⟨hhalts, htime, hlines⟩ := printedLines_around (hmem.image 0 (by decide)) h₁ h₂
  obtain ⟨rfl, rfl⟩ := hwhere.unique (.idled hhalts (by decide : 2 ≤ 3))
  rw [htime] at hcycles
  obtain rfl : steps = 3 := UInt64.toNat_inj.mp hsteps
  obtain rfl : cycles = 15 := UInt64.toNat_inj.mp hcycles
  rw [show report .standard wall fuel files none args = some r from hr fuel hfuel, ← hlines]
  cases hshown
  rfl

end Program

end Z80
