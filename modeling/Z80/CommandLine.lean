/-
  Z80.CommandLine

  The command line: the image and the options given, and how they override
  settings.
-/

import Z80.Settings

namespace Z80

/-- A command line: the image and the options given. -/
structure CommandLine where
  image : String
  config : Option String
  loadAddress : Option Word
  entry : Option Word
  maxSteps : Option UInt64
  mhz : Option Float
  fast : Bool
  noStopOnHalt : Bool
  trace : Bool
  dumpState : Bool

namespace CommandLine

/-- Settings with what the command line says in place of them. -/
def apply (c : CommandLine) (s : Settings) : Settings where
  clock :=
    { mhz := c.mhz.getD s.clock.mhz
      realtime := if c.fast then false else s.clock.realtime }
  loadAddress := c.loadAddress.getD s.loadAddress
  entryPoint := c.entry <|> s.entryPoint
  maxSteps := c.maxSteps <|> s.maxSteps
  stopOnHalt := if c.noStopOnHalt then false else s.stopOnHalt

end CommandLine

end Z80
