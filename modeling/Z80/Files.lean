/-
  Z80.Files

  What a run sees of the files around it: what reading a path gives, and whether
  a path names a file.  A file may be there and not be readable, and what is
  readable need not be a file, so the one does not follow from the other.
-/

namespace Z80

/-- Why a file could not be read. -/
inductive FileError where
  | notFound
  /-- A file stands where the path needs a directory. -/
  | notDirectory
  | isDirectory
  | nameTooLong
  /-- The contents are not UTF-8. -/
  | notText
  /-- What else may go wrong, in the words of the system. -/
  | other (message : String)
  deriving DecidableEq, Repr

/-- The message of a file error. -/
def FileError.message : FileError → String
  | notFound => "No such file or directory (os error 2)"
  | notDirectory => "Not a directory (os error 20)"
  | isDirectory => "Is a directory (os error 21)"
  | nameTooLong => "File name too long (os error 36)"
  | notText => "stream did not contain valid UTF-8"
  | other message => message

/-- Files by path. -/
structure Files where
  /-- What reading a path gives. -/
  read : String → Except FileError ByteArray
  /-- Whether a path is found to lead to a file. -/
  isFile : String → Bool

end Z80
