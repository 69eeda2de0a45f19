/-
  Z80.Json.Record

  Reading a record with named fields out of a JSON value: from an object, whose
  unknown members are ignored, or from an array that holds the fields in order.
-/

import Z80.Json.Basic

namespace Z80.Json

/-- The fields of a record by name.  A field that occurs twice, a member whose
    name is no text, or an array with more elements than fields is refused. -/
def record? (names : List String) : Json → Option (String → Option Json)
  | obj members =>
    if members.any (·.1.isNone) then none
    else if names.any fun n => 1 < members.countP (·.1 == some n) then none
    else some fun n => members.lookup (some n)
  | arr xs => if names.length < xs.length then none else some fun n => (names.zip xs).lookup n
  | _ => none

/-- The byte in a value. -/
def byte? (v : Json) : Option UInt8 :=
  (v.natBelow? 256).map Nat.toUInt8

/-- The word in a value. -/
def word? (v : Json) : Option UInt16 :=
  (v.natBelow? 65536).map Nat.toUInt16

end Z80.Json
