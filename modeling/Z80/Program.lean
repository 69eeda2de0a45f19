/-
  Z80.Program

  The program as a whole: a command line, the files around it, and what is
  reported at the end.

  The settings are read before the image, and nothing is executed unless both are
  there.  What the wall clock shows in between is left to a `WallClock`;
  the report does not depend on it.  How arguments and documents are read and how
  states are written is left to `Formats`.
-/

import Z80.CommandLine
import Z80.Files
import Z80.Image
import Z80.Runner
import Z80.Snapshot

namespace Z80

/-- What keeps a program from running an image. -/
inductive ProgramError where
  /-- The file of the settings cannot be read. -/
  | unreadableSettings (path : String) (e : FileError)
  /-- The file of the settings holds none. -/
  | invalidSettings (path message : String)
  | image (path : String) (e : ImageError)
  /-- The final state cannot be written down. -/
  | state (message : String)
  deriving DecidableEq, Repr

/-- The message of a program error. -/
def ProgramError.message : ProgramError → String
  | unreadableSettings path e => "failed to read config " ++ path ++ ": " ++ e.message
  | invalidSettings path message => "invalid config " ++ path ++ ": " ++ message
  | image path e => "failed to load " ++ path ++ ": " ++ e.message
  | state message => "failed to encode state: " ++ message

/-- What a program leaves behind. -/
structure Report where
  exitCode : Nat
  output : String
  error : Option String
  deriving DecidableEq, Repr

/-- How arguments and documents are read, and how states are written. -/
structure Formats where
  /-- The command line that arguments stand for, or the report of arguments with which
      nothing is run. -/
  commandLine : List String → Except Report CommandLine
  /-- What the text of a document says about settings, or what is wrong with it. -/
  settings : String → Except String Settings.Given
  /-- The text of a state, or why it has none. -/
  state : Snapshot → Except String String

namespace Program

/-! ## Settings and image -/

/-- The path of the settings to read: the one on the command line, or the user's
    own if there is such a file. -/
def settingsPath (c : CommandLine) (files : Files) (userSettings : Option String) :
    Option String :=
  match c.config, userSettings with
  | some path, _ => some path
  | none, some path => if files.isFile path then some path else none
  | none, none => none

/-- The settings in the contents of a file. -/
def settingsIn (formats : Formats) (path : String) (contents : Except FileError ByteArray) :
    Except ProgramError Settings :=
  match contents with
  | .error e => .error (.unreadableSettings path e)
  | .ok bytes =>
    match String.fromUTF8? bytes with
    | none => .error (.unreadableSettings path .notText)
    | some text =>
      match formats.settings text with
      | .ok g => .ok g.toSettings
      | .error message => .error (.invalidSettings path message)

/-- The settings of a run before the command line overrides them. -/
def settings (formats : Formats) (c : CommandLine) (files : Files)
    (userSettings : Option String) : Except ProgramError Settings :=
  match settingsPath c files userSettings with
  | some path => settingsIn formats path (files.read path)
  | none => .ok {}

/-- The machine at power-on with an image loaded and the program counter at the
    entry point. -/
def machine (s : Settings) (path : String) (contents : Except FileError ByteArray) :
    Except ProgramError Machine :=
  let m := Machine.initial s.clock
  match m.mem.loadImage s.loadAddress (contents.map (·.data.toList)) with
  | .error e => .error (.image path e)
  | .ok (mem, _) => .ok ({ m with mem }.setPc s.entry)

/-- The settings of a run with the machine that it starts from. -/
def prepare (formats : Formats) (c : CommandLine) (files : Files)
    (userSettings : Option String) : Except ProgramError (Settings × Machine) := do
  let s := c.apply (← settings formats c files userSettings)
  return (s, ← machine s c.image (files.read c.image))

/-! ## The report -/

/-- A word with the name of its register. -/
def registerText (name : String) (w : Word) : String :=
  name ++ "=" ++ Hex.upper 4 w.toNat

/-- The registers on one line. -/
def registersText (s : Snapshot) : String :=
  " ".intercalate [registerText "PC" s.pc, registerText "SP" s.sp,
    registerText "AF" (.ofBytes s.a s.f), registerText "BC" (.ofBytes s.b s.c),
    registerText "DE" (.ofBytes s.d s.e), registerText "HL" (.ofBytes s.h s.l),
    registerText "IX" s.ix, registerText "IY" s.iy]

/-- How a run ended, on one line. -/
def endText (o : Outcome) : String :=
  o.reason.text ++ " after " ++ toString o.steps ++ " steps, " ++ toString o.cycles ++ " T-states"

/-- What is printed about an outcome: the state in full, or its registers and how
    the run ended. -/
def summary (formats : Formats) (dumpState : Bool) (o : Outcome) :
    Except ProgramError String :=
  if dumpState then
    match formats.state o.machine.snapshot with
    | .ok text => .ok (text ++ "\n")
    | .error message => .error (.state message)
  else .ok (registersText o.machine.snapshot ++ "\n" ++ endText o ++ "\n")

/-- The notices of a run that are shown: those of little weight only on request. -/
def shown (trace : Bool) (log : List Notice) : List Notice :=
  log.filter fun n => trace || n.level ≠ .debug

/-- The report of an error. -/
def errorReport (e : ProgramError) : Report :=
  { exitCode := 1, output := "", error := some ("z80emu: " ++ e.message) }

/-- The report of an outcome. -/
def outcomeReport (formats : Formats) (c : CommandLine) (o : Outcome) : Report :=
  match summary formats c.dumpState o with
  | .ok output => { exitCode := 0, output, error := none }
  | .error e => errorReport e

/-- The report of a run.  `none` if the run makes `fuel` polls without coming to
    an end. -/
def report (formats : Formats) (clock : WallClock) (fuel : Nat) (files : Files)
    (userSettings : Option String) (args : List String) : Option Report :=
  match formats.commandLine args with
  | .error r => some r
  | .ok c =>
    match prepare formats c files userSettings with
    | .error e => some (errorReport e)
    | .ok (s, m) =>
      (Runner.run clock s.maxSteps s.stopOnHalt fuel m).map (outcomeReport formats c)

end Program

end Z80
