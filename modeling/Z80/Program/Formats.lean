/-
  Z80.Program.Formats

  The formats that the program is used with: a command line of options and one
  image, settings in TOML, and the final state as indented JSON.
-/

import Z80.CommandLine.Parser
import Z80.Json.Printer
import Z80.Program
import Z80.Settings.Toml

namespace Z80

/-- The report of a command line that is refused or asks for a text. -/
def CommandLine.Stop.report (e : Stop) : Report :=
  { exitCode := e.exitCode, output := e.output, error := e.message }

/-- The formats in use. -/
def Formats.standard : Formats where
  commandLine args := (CommandLine.parse args).mapError CommandLine.Stop.report
  settings text :=
    match Settings.Given.parse? text with
    | some g => .ok g
    | none => .error "TOML parse error"
  state s := .ok (Json.pretty 0 s.toJson)

end Z80
