/-
  Z80.Settings

  The settings of a run: the clock, where the image goes, where execution starts,
  and when it ends.  Each may be left out where settings are given, and then has a
  default (`Settings.Given.toSettings`).
-/

import Z80.Clock
import Z80.Word

namespace Z80

/-- The settings of a run. -/
structure Settings where
  clock : Clock := {}
  /-- Where the image is loaded. -/
  loadAddress : Word := 0
  /-- Where execution starts, if not where the image is loaded. -/
  entryPoint : Option Word := none
  /-- After how many steps a run ends. -/
  maxSteps : Option UInt64 := none
  /-- Whether a run ends when the processor halts, and not only after the steps. -/
  stopOnHalt : Bool := true
  deriving Inhabited

namespace Settings

/-- Where execution starts. -/
def entry (s : Settings) : Word :=
  s.entryPoint.getD s.loadAddress

/-- What is said about the settings of a run.  Each of them may be left out. -/
structure Given where
  mhz : Option Float := none
  realtime : Option Bool := none
  loadAddress : Option Word := none
  entryPoint : Option Word := none
  maxSteps : Option UInt64 := none
  stopOnHalt : Option Bool := none

/-- The settings with the default for what is left out. -/
def Given.toSettings (g : Given) : Settings :=
  let default : Settings := {}
  { clock :=
      { mhz := g.mhz.getD default.clock.mhz
        realtime := g.realtime.getD default.clock.realtime }
    loadAddress := g.loadAddress.getD default.loadAddress
    entryPoint := g.entryPoint
    maxSteps := g.maxSteps
    stopOnHalt := g.stopOnHalt.getD default.stopOnHalt }

end Settings

end Z80
