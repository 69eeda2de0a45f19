/-
  Z80.CommandLine.Parser

  Reading a command line: one image, options with a value, and switches.

  Arguments are taken from left to right.  The value of an option that stands
  apart from it, and the image, are examined only when the next thing is
  recognised or the line ends.  So an argument that fits nowhere is reported
  before a bad value in front of it.
-/

import Z80.Address
import Z80.CommandLine
import Z80.Text.Real

namespace Z80

/-- An option with a value. -/
inductive CommandLine.Key where
  | config | loadAddress | entry | maxSteps | mhz
  deriving DecidableEq, Repr

/-- An option without a value. -/
inductive CommandLine.Switch where
  | fast | noStopOnHalt | trace | dumpState
  deriving DecidableEq, Repr

namespace CommandLine

/-- Why a command line runs nothing. -/
inductive Stop where
  /-- The help text is asked for. -/
  | help
  /-- The version is asked for. -/
  | version
  | missingImage
  /-- An option has no value, or a path is empty. -/
  | missingValue
  /-- A value is no address or number. -/
  | invalidValue
  | unknownArgument
  /-- An option is given twice. -/
  | repeated
  /-- A switch is given a value. -/
  | unwantedValue
  deriving DecidableEq, Repr

/-- What has been examined of a command line. -/
structure Found where
  image : Option String := none
  config : Option String := none
  loadAddress : Option Word := none
  entry : Option Word := none
  maxSteps : Option UInt64 := none
  mhz : Option Float := none
  fast : Bool := false
  noStopOnHalt : Bool := false
  trace : Bool := false
  dumpState : Bool := false

/-- What has been recognised but not examined. -/
inductive Pending where
  | nothing
  | image (path : String)
  /-- An option, and its value once it has come. -/
  | option (key : Key) (value : Option String)

/-! ## Names -/

/-- The option with a value of a name. -/
def Key.ofName? : String → Option Key
  | "config" => some config
  | "load-address" => some loadAddress
  | "entry" => some entry
  | "max-steps" => some maxSteps
  | "mhz" => some mhz
  | _ => none

/-- What stands behind the dashes of an argument without a value. -/
inductive Flag where
  | switch (s : Switch)
  | help
  | version
  deriving DecidableEq, Repr

/-- The flag of a name. -/
def Flag.ofName? : String → Option Flag
  | "fast" => some (switch .fast)
  | "no-stop-on-halt" => some (switch .noStopOnHalt)
  | "trace" => some (switch .trace)
  | "dump-state" => some (switch .dumpState)
  | "help" => some help
  | "version" => some version
  | _ => none

/-- The flag of a letter. -/
def Flag.ofLetter? : Char → Option Flag
  | 'h' => some help
  | 'V' => some version
  | _ => none

/-! ## Examining -/

/-- A path, which must not be empty. -/
def readPath (s : String) : Except Stop String :=
  if s.isEmpty then .error .missingValue else .ok s

/-- An address. -/
def readAddress (s : String) : Except Stop Word :=
  match Address.parse s with
  | .ok a => .ok a
  | .error _ => .error .invalidValue

/-- A number of steps. -/
def readSteps (s : String) : Except Stop UInt64 :=
  match Numeral.read 10 0x10000000000000000 s.toList with
  | .ok n => .ok n.toUInt64
  | .error _ => .error .invalidValue

/-- A clock speed. -/
def readSpeed (s : String) : Except Stop Float :=
  match Real.read? s.toList with
  | some f => .ok f
  | none => .error .invalidValue

/-- The value for a field that must not have one yet. -/
def once {α : Type} (before : Option α) (value : Except Stop α) : Except Stop (Option α) :=
  match before with
  | some _ => .error .repeated
  | none => value.map some

namespace Found

/-- What is found with the value of an option. -/
def give (f : Found) (value : String) : Key → Except Stop Found
  | .config => do return { f with config := ← once f.config (readPath value) }
  | .loadAddress => do return { f with loadAddress := ← once f.loadAddress (readAddress value) }
  | .entry => do return { f with entry := ← once f.entry (readAddress value) }
  | .maxSteps => do return { f with maxSteps := ← once f.maxSteps (readSteps value) }
  | .mhz => do return { f with mhz := ← once f.mhz (readSpeed value) }

/-- What is found with a switch, which must not be on yet. -/
def turnOn (f : Found) : Switch → Except Stop Found
  | .fast => if f.fast then .error .repeated else .ok { f with fast := true }
  | .noStopOnHalt =>
    if f.noStopOnHalt then .error .repeated else .ok { f with noStopOnHalt := true }
  | .trace => if f.trace then .error .repeated else .ok { f with trace := true }
  | .dumpState => if f.dumpState then .error .repeated else .ok { f with dumpState := true }

/-- What is found with the pending part examined. -/
def resolve (f : Found) : Pending → Except Stop Found
  | .nothing => .ok f
  | .image path => do return { f with image := some (← readPath path) }
  | .option _ none => .error .missingValue
  | .option key (some value) => f.give value key

/-- What is found with a flag. -/
def raise (f : Found) : Flag → Except Stop Found
  | .switch s => f.turnOn s
  | .help => .error .help
  | .version => .error .version

/-- The command line, once all of it is examined. -/
def finish (f : Found) : Except Stop CommandLine :=
  match f.image with
  | none => .error .missingImage
  | some image =>
    .ok { f with image }

end Found

/-! ## From left to right -/

/-- How an argument reads while options are possible. -/
inductive Shape where
  /-- Two dashes: no options follow. -/
  | endOfOptions
  /-- Two dashes, a name, and a value behind an equals sign. -/
  | long (name : String) (value : Option String)
  /-- A dash and a letter. -/
  | short (letter : Char)
  | plain

/-- The shape of an argument. -/
def Shape.of (arg : String) : Shape :=
  match arg.toList with
  | ['-', '-'] => .endOfOptions
  | '-' :: '-' :: cs =>
    let name := String.ofList (cs.takeWhile (· != '='))
    match cs.dropWhile (· != '=') with
    | [] => .long name none
    | _ :: value => .long name (some (String.ofList value))
  | '-' :: c :: _ => .short c
  | _ => .plain

/-- The state between two arguments. -/
structure State where
  found : Found := {}
  pending : Pending := .nothing
  /-- Whether options are still possible. -/
  options : Bool := true
  /-- Whether the image has been recognised. -/
  hasImage : Bool := false

namespace State

/-- The state after the image. -/
def takeImage (s : State) (arg : String) : Except Stop State :=
  if s.hasImage then .error .unknownArgument
  else do
    return { s with found := ← s.found.resolve s.pending, pending := .image arg, hasImage := true }

/-- The state after a flag. -/
def takeFlag (s : State) (flag : Flag) : Except Stop State := do
  let found ← s.found.resolve s.pending
  return { s with found := ← found.raise flag, pending := .nothing }

/-- The state after an option with a value, which may have come with it. -/
def takeKey (s : State) (key : Key) (value : Option String) : Except Stop State := do
  let found ← s.found.resolve s.pending
  match value with
  | some value => return { s with found := ← found.give value key, pending := .nothing }
  | none => return { s with found, pending := .option key none }

/-- The state after one argument. -/
def take (s : State) (arg : String) : Except Stop State :=
  if !s.options then s.takeImage arg
  else
    match Shape.of arg with
    | .endOfOptions => .ok { s with options := false }
    | .long name value =>
      match Key.ofName? name, Flag.ofName? name, value with
      | some key, _, value => s.takeKey key value
      | none, some flag, none => s.takeFlag flag
      | none, some _, some _ => .error .unwantedValue
      | none, none, _ => .error .unknownArgument
    | .short letter =>
      match Flag.ofLetter? letter with
      | some flag => s.takeFlag flag
      | none => .error .unknownArgument
    | .plain =>
      match s.pending with
      | .option key none => .ok { s with pending := .option key (some arg) }
      | _ => s.takeImage arg

end State

/-- The command line that arguments stand for. -/
def parse (args : List String) : Except Stop CommandLine := do
  let s ← args.foldlM State.take {}
  (← s.found.resolve s.pending).finish

/-! ## Texts -/

/-- The answer to a question for the version. -/
def versionText : String :=
  "z80emu 0.1.0\n"

/-- The options with what they do, for the help text. -/
def optionHelp : List (String × String) :=
  [("    --config <CONFIG>", "Config file (default: <config_dir>/z80emu/config.toml)"),
    ("    --load-address <LOAD_ADDRESS>", ""),
    ("    --entry <ENTRY>", "Initial PC (default: the load address)"),
    ("    --max-steps <MAX_STEPS>", ""),
    ("    --mhz <MHZ>", "Clock speed in MHz"),
    ("    --fast", "Run flat out instead of pacing to the clock"),
    ("    --no-stop-on-halt", "Keep stepping through HALT until --max-steps is reached"),
    ("    --trace", "Log every instruction (same as RUST_LOG=trace)"),
    ("    --dump-state", "Print the final register state as JSON"),
    ("-h, --help", "Print help"),
    ("-V, --version", "Print version")]

/-- A text with spaces behind it up to a width. -/
def padRight (width : Nat) (s : String) : String :=
  s ++ String.ofList (List.replicate (width - s.length) ' ')

/-- The answer to a question for help. -/
def helpText : String :=
  "Run a raw Z80 binary image headlessly and report the final CPU state\n\n" ++
  "Usage: z80emu [OPTIONS] <IMAGE>\n\n" ++
  "Arguments:\n  <IMAGE>  Raw binary image to load\n\nOptions:\n" ++
  String.join (optionHelp.map fun (name, help) => "  " ++ padRight 35 name ++ help ++ "\n")

/-- What a stop prints on the standard output. -/
def Stop.output : Stop → String
  | help => helpText
  | version => versionText
  | _ => ""

/-- What a stop says about a command line that is refused. -/
def Stop.message : Stop → Option String
  | help => none
  | version => none
  | missingImage => some "error: the following required arguments were not provided: <IMAGE>"
  | missingValue => some "error: a value is required but none was supplied"
  | invalidValue => some "error: invalid value for an option"
  | unknownArgument => some "error: unexpected argument found"
  | repeated => some "error: an option cannot be used multiple times"
  | unwantedValue => some "error: unexpected value for an option that takes none"

/-- The exit code of a stop. -/
def Stop.exitCode : Stop → Nat
  | help => 0
  | version => 0
  | _ => 2

end CommandLine

end Z80
