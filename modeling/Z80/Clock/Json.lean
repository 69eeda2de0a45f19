/-
  Z80.Clock.Json

  The clock settings in a JSON value: an object in which both fields may be
  missing and others are ignored.
-/

import Z80.Clock
import Z80.Json.Record

namespace Z80.Clock

/-- The clock settings in a value.  The speed is any number. -/
def ofJson? (v : Json) : Option Clock := do
  let field ← v.record? ["mhz", "realtime"]
  let mhz ← match field "mhz" with
    | none => some Clock.defaultMhz
    | some (.num n) => n.toFloat?
    | some _ => none
  let realtime ← match field "realtime" with
    | none => some true
    | some v => v.bool?
  some { mhz, realtime }

end Z80.Clock
