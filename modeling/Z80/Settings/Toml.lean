/-
  Z80.Settings.Toml

  What a TOML document says about settings.  Every entry may be missing; one of
  another name is refused, except in the table of the clock, where it is ignored.
-/

import Z80.Settings
import Z80.Toml.Document

namespace Z80

namespace Toml

/-- The truth value in a value. -/
def bool? : Toml → Option Bool
  | bool b => some b
  | _ => none

/-- The natural number in a value, if it is below a bound. -/
def natBelow? (bound : Nat) : Toml → Option Nat
  | int i => if 0 ≤ i ∧ i < bound then some i.toNat else none
  | _ => none

/-- The floating-point number in a value, which may be written as an integer. -/
def float? : Toml → Option Float
  | float f => some f
  | int i =>
    let magnitude := i.natAbs.toUInt64.toFloat
    some (if i < 0 then -magnitude else magnitude)
  | _ => none

/-- What an entry that may be missing gives. -/
def given? {α : Type} (read? : Toml → Option α) : Option Toml → Option (Option α)
  | none => some none
  | some v => (read? v).map some

end Toml

/-- The fields of a record in a value, by name and by place: from a table, or from
    an array that holds them in order.  A date is a record with none of them. -/
def Toml.fields? : Toml → Option (String → Nat → Option Toml)
  | table _ entries => some fun name _ => entries.lookup name
  | array xs => some fun _ i => xs[i]?
  | dateTime => some fun _ _ => none
  | _ => none

/-- The speed that a value gives, and whether to keep to it. -/
def Clock.given? (v : Toml) : Option (Option Float × Option Bool) := do
  let field ← v.fields?
  let mhz ← Toml.given? Toml.float? (field "mhz" 0)
  let realtime ← Toml.given? Toml.bool? (field "realtime" 1)
  some (mhz, realtime)

namespace Settings.Given

/-- The names of all settings in a document. -/
def names : List String :=
  ["clock", "load_address", "entry_point", "max_steps", "stop_on_halt"]

/-- What the entries of a document say. -/
def ofEntries? (entries : Toml.Entries) : Option Given := do
  if entries.any fun e => !names.contains e.1 then none
  let word? (v : Toml) : Option Word := (v.natBelow? 65536).map Nat.toUInt16
  let steps? (v : Toml) : Option UInt64 := (v.natBelow? 0x10000000000000000).map Nat.toUInt64
  let clock ← Toml.given? Clock.given? (entries.lookup "clock")
  let (mhz, realtime) := clock.getD (none, none)
  let loadAddress ← Toml.given? word? (entries.lookup "load_address")
  let entryPoint ← Toml.given? word? (entries.lookup "entry_point")
  let maxSteps ← Toml.given? steps? (entries.lookup "max_steps")
  let stopOnHalt ← Toml.given? Toml.bool? (entries.lookup "stop_on_halt")
  some { mhz, realtime, loadAddress, entryPoint, maxSteps, stopOnHalt }

/-- What the text of a document says. -/
def parse? (s : String) : Option Given :=
  (Toml.parse? s).bind ofEntries?

end Settings.Given

end Z80
