/-
  Z80.Case.Json

  Test cases in JSON.  A file holds an array of cases.  The memory cells are
  pairs, bus cycles and port accesses triples; the fields that the processor
  does not have and the port accesses may be missing.
-/

import Z80.Case.Basic
import Z80.Json.Parser

namespace Z80

/-! ## Reading -/

namespace Json

/-- The array of elements that are all readable. -/
def listOf? {α : Type} (read : Json → Option α) (v : Json) : Option (List α) :=
  v.elements?.bind fun xs => xs.mapM read

/-- A value, or `none` in the place of `null`. -/
def orNull? {α : Type} (read : Json → Option α) (v : Json) : Option (Option α) :=
  match v with
  | null => some none
  | v => (read v).map some

/-- The cell in a pair of an address and a byte. -/
def cell? : Json → Option (UInt16 × UInt8)
  | arr [a, v] => do some (← a.word?, ← v.byte?)
  | _ => none

end Json

namespace CaseState

/-- The names of the fields. -/
def fieldNames : List String :=
  ["pc", "sp", "a", "b", "c", "d", "e", "f", "h", "l", "i", "r", "ix", "iy", "af_", "bc_", "de_",
   "hl_", "im", "iff1", "iff2", "wz", "ei", "p", "q", "ram"]

/-- The case state in a value. -/
def ofJson? (v : Json) : Option CaseState := do
  let field ← v.record? fieldNames
  let byte (n : String) := (field n).bind Json.byte?
  let word (n : String) := (field n).bind Json.word?
  let byteOr (n : String) : Option Byte := match field n with
    | some v => v.byte?
    | none => some 0
  let wordOr (n : String) : Option Word := match field n with
    | some v => v.word?
    | none => some 0
  some {
    pc := ← word "pc"
    sp := ← word "sp"
    a := ← byte "a"
    b := ← byte "b"
    c := ← byte "c"
    d := ← byte "d"
    e := ← byte "e"
    f := ← byte "f"
    h := ← byte "h"
    l := ← byte "l"
    i := ← byte "i"
    r := ← byte "r"
    ix := ← word "ix"
    iy := ← word "iy"
    afAlt := ← word "af_"
    bcAlt := ← word "bc_"
    deAlt := ← word "de_"
    hlAlt := ← word "hl_"
    im := ← byte "im"
    iff1 := ← byte "iff1"
    iff2 := ← byte "iff2"
    wz := ← wordOr "wz"
    ei := ← byteOr "ei"
    p := ← byteOr "p"
    q := ← byteOr "q"
    ram := ← (field "ram").bind (Json.listOf? Json.cell?) }

/-- The object of a case state. -/
def toJson (s : CaseState) : Json :=
  let byte (b : Byte) := Json.ofNat b.toNat
  let word (w : Word) := Json.ofNat w.toNat
  .object (fieldNames.zip
    [word s.pc, word s.sp, byte s.a, byte s.b, byte s.c, byte s.d, byte s.e, byte s.f, byte s.h,
     byte s.l, byte s.i, byte s.r, word s.ix, word s.iy, word s.afAlt, word s.bcAlt,
     word s.deAlt, word s.hlAlt, byte s.im, byte s.iff1, byte s.iff2, word s.wz, byte s.ei,
     byte s.p, byte s.q, .arr (s.ram.map fun (a, v) => .arr [word a, byte v])])

end CaseState

/-- The bus cycle in a triple. -/
def BusCycle.ofJson? : Json → Option BusCycle
  | .arr [a, d, pins] => do
    some ⟨← a.orNull? Json.word?, ← d.orNull? Json.byte?, ← pins.text?⟩
  | _ => none

/-- The triple of a bus cycle. -/
def BusCycle.toJson (c : BusCycle) : Json :=
  .arr [
    match c.address with
    | some a => .ofNat a.toNat
    | none => .null,
    match c.data with
    | some d => .ofNat d.toNat
    | none => .null,
    .text c.pins]

/-- The port access in a triple. -/
def PortAccess.ofJson? : Json → Option PortAccess
  | .arr [a, v, direction] => do some ⟨← a.word?, ← v.byte?, ← direction.text?⟩
  | _ => none

/-- The triple of a port access. -/
def PortAccess.toJson (p : PortAccess) : Json :=
  .arr [.ofNat p.port.toNat, .ofNat p.value.toNat, .text p.direction]

namespace Case

/-- The case in a value. -/
def ofJson? (v : Json) : Option Case := do
  let field ← v.record? ["name", "initial", "final", "cycles", "ports"]
  some {
    name := ← (field "name").bind Json.text?
    initial := ← (field "initial").bind CaseState.ofJson?
    final := ← (field "final").bind CaseState.ofJson?
    cycles := ← (field "cycles").bind (Json.listOf? BusCycle.ofJson?)
    ports := ← match field "ports" with
      | some v => v.listOf? PortAccess.ofJson?
      | none => some [] }

/-- The object of a case. -/
def toJson (c : Case) : Json :=
  .object [
    ("name", .text c.name),
    ("initial", c.initial.toJson),
    ("final", c.final.toJson),
    ("cycles", .arr (c.cycles.map (·.toJson))),
    ("ports", .arr (c.ports.map (·.toJson)))]

/-- The cases in a text. -/
def parseAll? (text : String) : Option (List Case) :=
  (Json.parse? text).bind (Json.listOf? ofJson?)

end Case

/-- The case state in a text. -/
def CaseState.parse? (text : String) : Option CaseState :=
  (Json.parse? text).bind CaseState.ofJson?

end Z80
