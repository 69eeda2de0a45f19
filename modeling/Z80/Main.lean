/-
  Z80.Main

  The command line program: reads the files that the command line names, runs the
  image at the pace of its clock, and prints the report.

  Waiting, reading and printing are done here; what is read, executed and reported
  is decided by `Z80.Program`.
-/

import Z80.Program.Formats

namespace Z80.Main

/-- What a failure of the system says about a file. -/
def fileError : IO.Error → FileError
  | .noFileOrDirectory .. => .notFound
  | .inappropriateType _ 21 _ => .isDirectory
  | .inappropriateType .. => .notDirectory
  | .permissionDenied _ code details => .other (details ++ " (os error " ++ toString code ++ ")")
  | e => .other (toString e)

/-- What reading a path gives. -/
def readFile (path : String) : IO (Except FileError ByteArray) := do
  try
    return .ok (← IO.FS.readBinFile path)
  catch e =>
    return .error (fileError e)

/-- Whether a path leads to something that is no directory: a slash behind it then
    asks for too much. -/
def isFile (path : String) : IO Bool := do
  match ← readFile path, ← readFile (path ++ "/.") with
  | .error .notDirectory, _ => return false
  | _, .error .notDirectory => return true
  | _, _ => return false

/-- The path of the user's own settings. -/
def userSettings : IO (Option String) := do
  let directory ← match ← IO.getEnv "XDG_CONFIG_HOME" with
    | some directory =>
      if directory.startsWith "/" then pure (some directory)
      else pure none
    | none => pure none
  let directory ← match directory with
    | some directory => pure (some directory)
    | none => pure ((← IO.getEnv "HOME").map (· ++ "/.config"))
  return directory.map (· ++ "/z80emu/config.toml")

/-- Wait until an instant: asleep as long as whole milliseconds are left. -/
partial def waitUntil (due : Nat) : IO Unit := do
  let now ← IO.monoNanosNow
  if now < due then
    let millis := (due - now) / 1000000
    if 0 < millis then IO.sleep (min millis 1000).toUInt32
    waitUntil due

/-- The wall clock for a single poll, when the next step is due. -/
def clockWhenDue (s : Scheduler) : IO WallClock := do
  waitUntil (s.due.getD 0)
  let now ← IO.monoNanosNow
  return { WallClock.ideal with instant := now }

/-- Execute steps one by one at the pace of the clock. -/
partial def pace (limit : Option UInt64) (issued : UInt64) (s : Scheduler) :
    IO (StopReason × Scheduler) := do
  let r := s.runUntil (← clockWhenDue s) (Runner.limitReached limit) 1 issued
  match r.reason with
  | some reason => return (reason, r.scheduler)
  | none => pace limit r.state r.scheduler

/-- Idle at the pace of the clock until a number of steps has been executed. -/
partial def paceIdle (n : UInt64) (s : Scheduler) : IO Scheduler := do
  if n ≤ s.steps then return s
  let (_, s, _) := s.pollOn (← clockWhenDue s)
  paceIdle n s

/-- Run a machine under settings. -/
def execute (s : Settings) (m : Machine) : IO (Option Outcome) := do
  if s.clock.realtime then
    let (reason, scheduler) ← pace s.maxSteps 0 (Scheduler.ofMachine m).start
    let scheduler ← paceIdle (Runner.idleLimit s.maxSteps s.stopOnHalt reason) scheduler
    return some (Runner.conclude s.maxSteps s.stopOnHalt reason scheduler)
  else
    return Runner.run .ideal s.maxSteps s.stopOnHalt Runner.maxPolls m

/-- Print a report and give back its exit code. -/
def emit (r : Report) : IO UInt32 := do
  IO.print r.output
  match r.error with
  | some e => IO.eprintln e
  | none => pure ()
  return r.exitCode.toUInt32

/-- Run an image as the command line says. -/
def run (c : CommandLine) : IO UInt32 := do
  let user ← userSettings
  let paths := c.image :: (c.config.toList ++ user.toList)
  let contents := paths.zip (← paths.mapM readFile)
  let known ← paths.filterM isFile
  let files : Files :=
    { read := fun path => (contents.lookup path).getD (.error .notFound)
      isFile := known.contains }
  match Program.prepare .standard c files user with
  | .error e => emit (Program.errorReport e)
  | .ok (s, m) =>
    match ← execute s m with
    | none => return 1
    | some o =>
      for n in Program.shown c.trace o.log do IO.eprintln n.text
      emit (Program.outcomeReport .standard c o)

end Z80.Main

/-- The program: its exit code. -/
def main (args : List String) : IO UInt32 :=
  match Z80.Formats.standard.commandLine args with
  | .error r => Z80.Main.emit r
  | .ok c => Z80.Main.run c
