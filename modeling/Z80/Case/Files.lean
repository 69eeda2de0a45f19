/-
  Z80.Case.Files

  Files of test cases: which files of a directory hold cases, and what is in
  one.  A file is JSON text, compressed if its name ends in `.gz`.
-/

import Z80.Case.Json
import Z80.Files
import Z80.Gzip

namespace Z80.Case

/-- Why a file of cases could not be used. -/
inductive FileProblem where
  /-- It could not be read, decompressed or taken as text. -/
  | io
  /-- It does not hold cases. -/
  | json
  deriving DecidableEq, Repr

/-- Whether a file name is one of a file of cases. -/
def isCaseFile (name : String) : Bool :=
  name.endsWith ".json" || name.endsWith ".json.gz"

/-- The files of cases among the names in a directory, in order. -/
def caseFiles (names : List String) : List String :=
  (names.filter isCaseFile).mergeSort fun a b => a ≤ b

/-- The cases in a file with the given contents. -/
def load (compressed : Bool) (contents : Except FileError ByteArray) :
    Except FileProblem (List Case) := do
  let bytes ← match contents with
    | .ok bytes => .ok bytes
    | .error _ => .error .io
  let bytes ← if compressed then
      match Gzip.decompress? bytes with
      | some bytes => .ok bytes
      | none => .error .io
    else .ok bytes
  match String.fromUTF8? bytes with
  | none => .error .io
  | some text =>
    match parseAll? text with
    | some cases => .ok cases
    | none => .error .json

end Z80.Case
