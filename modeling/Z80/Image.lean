/-
  Z80.Image

  Raw memory images from files.  A file that cannot be read, is empty or is
  larger than the address space is refused and leaves memory alone.
-/

import Z80.Files
import Z80.Space

namespace Z80

/-- Why an image was not loaded. -/
inductive ImageError where
  | io (e : FileError)
  | empty
  | tooLarge (size : Nat)
  deriving DecidableEq, Repr

/-- The message of an image error. -/
def ImageError.message : ImageError → String
  | io e => "IO error: " ++ e.message
  | empty => "image file is empty"
  | tooLarge size =>
    "image of " ++ toString size ++ " bytes does not fit in the 64KB address space"

namespace Space

/-- Loading the contents of a file from `a` on, wrapping past the top address: the number of
    bytes.  What is wrong with a file is found before a cell is written. -/
def loadFile (a : Word) (file : Except FileError (List Byte)) :
    ExceptT ImageError (StateM Space) Nat := do
  match file with
  | .error e => throw (.io e)
  | .ok [] => throw .empty
  | .ok data =>
    if 65536 < data.length then throw (.tooLarge data.length)
    else
      modify (·.load a data)
      return data.length

/-- The space with the contents of a file loaded, and the number of bytes. -/
def loadImage (s : Space) (a : Word) (file : Except FileError (List Byte)) :
    Except ImageError (Space × Nat) :=
  let (result, loaded) := (loadFile a file).run s
  result.map fun n => (loaded, n)

end Space

end Z80
