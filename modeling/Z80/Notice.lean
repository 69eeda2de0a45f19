/-
  Z80.Notice

  What a run reports besides its result: a HALT, an opcode without an
  instruction, and the start and end of scheduling.
-/

import Z80.Step
import Z80.Text.Hex

namespace Z80

/-! ## Faults in words -/

/-- The opcode bytes as they stand in memory. -/
def Opcode.text : Opcode → String
  | cb op => "CB " ++ Hex.upper 2 op.toNat
  | ed op => "ED " ++ Hex.upper 2 op.toNat
  | indexCb x d op =>
    (match x with
      | .ix => "DD"
      | .iy => "FD") ++ " CB " ++ Hex.upper 2 d.toUInt8.toNat ++ " " ++ Hex.upper 2 op.toNat

/-- The message of a fault. -/
def Fault.message (e : Fault) : String :=
  "unimplemented opcode " ++ e.opcode.text ++ " at 0x" ++ Hex.lower 4 e.pc.toNat

/-! ## Notices -/

/-- How much a notice matters. -/
inductive Level where
  | warn | info | debug
  deriving DecidableEq, Repr

/-- The name of a level. -/
def Level.text : Level → String
  | warn => "WARN"
  | info => "INFO"
  | debug => "DEBUG"

/-- Why a run ended. -/
inductive StopReason where
  /-- The scheduler is not running. -/
  | exited
  /-- The processor is halted. -/
  | halted
  /-- The condition to stop at holds. -/
  | predicate
  deriving DecidableEq, Repr

/-- The name of a reason. -/
def StopReason.text : StopReason → String
  | exited => "Exited"
  | halted => "Halted"
  | predicate => "Predicate"

/-- Something to report. -/
inductive Notice where
  /-- An opcode without an instruction was executed. -/
  | unimplemented (fault : Fault)
  /-- A HALT was executed, at the address of its opcode. -/
  | halt (address : Word)
  | start
  | exit (steps total : UInt64)
  /-- A run ended. -/
  | stopped (reason : StopReason) (steps total : UInt64)
  /-- A run ended because nothing can wake a halted processor. -/
  | unlimitedHalt
  deriving DecidableEq, Repr

namespace Notice

/-- The level of a notice. -/
def level : Notice → Level
  | unimplemented _ => .warn
  | halt _ => .debug
  | start => .debug
  | exit _ _ => .debug
  | stopped _ _ _ => .info
  | unlimitedHalt => .warn

/-- The message of a notice. -/
def message : Notice → String
  | unimplemented fault => fault.message
  | halt a => "HALT at " ++ Hex.upper 4 a.toNat
  | start => "scheduler start"
  | exit steps total =>
    "scheduler exit after " ++ toString steps ++ " steps, " ++ toString total ++ " T-states"
  | stopped reason steps total =>
    "stopped (" ++ reason.text ++ ") after " ++ toString steps ++ " steps, " ++ toString total ++
      " T-states"
  | unlimitedHalt => "CPU halted with no step limit; stopping"

/-- A notice with its level. -/
def text (n : Notice) : String :=
  n.level.text ++ " " ++ n.message

end Notice

namespace Machine

/-- The HALT that the next step executes, if any. -/
def haltNotice? (m : Machine) : Option Notice :=
  if m.halted then none
  else
    let d := m.current
    match d.instr with
    | .halt => some (.halt (m.pc + d.size.toUInt16 - 1))
    | _ => none

/-- What the next step reports, if anything. -/
def notice? (m : Machine) : Option Notice :=
  match m.fault? with
  | some fault => some (.unimplemented fault)
  | none => m.haltNotice?

end Machine

end Z80
