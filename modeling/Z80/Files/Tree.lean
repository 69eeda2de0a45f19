/-
  Z80.Files.Tree

  A tree of directories with files in it, and how a path is followed through it.

  A path is followed name by name from the working directory, or from the root if
  it begins with a slash.  Every name but the last must lead to a directory; a
  slash at the end asks for one too.
-/

import Z80.Files

namespace Z80

/-- Files by the names that lead to them from the root.  Every list of names in
    front of them is a directory, and so is the working directory. -/
structure FileTree where
  files : List (List String × ByteArray)
  workingDirectory : List String := []

namespace FileTree

/-- The longest name of a file in bytes. -/
def maxName : Nat := 255

/-- The longest path in bytes. -/
def maxPath : Nat := 4095

/-- The contents of the file that names lead to. -/
def file? (t : FileTree) (names : List String) : Option ByteArray :=
  t.files.lookup names

/-- Whether names lead to a directory. -/
def isDirectory (t : FileTree) (names : List String) : Bool :=
  names.isEmpty || names.isPrefixOf t.workingDirectory ||
    t.files.any fun f => names.isPrefixOf f.1 && names.length < f.1.length

/-- The names that lead to the place of a path; `here` leads to the part already
    followed. -/
def follow (t : FileTree) (here : List String) : List String → Except FileError (List String)
  | [] =>
    if t.isDirectory here || (t.file? here).isSome then .ok here else .error .notFound
  | name :: names =>
    if (t.file? here).isSome then .error .notDirectory
    else if !t.isDirectory here then .error .notFound
    else if name = "" ∨ name = "." then follow t here names
    else if name = ".." then follow t here.dropLast names
    else if maxName < name.utf8ByteSize then .error .nameTooLong
    else follow t (here ++ [name]) names

/-- What reading a path gives. -/
def read (t : FileTree) (path : String) : Except FileError ByteArray := do
  if path.isEmpty then throw .notFound
  if maxPath < path.utf8ByteSize then throw .nameTooLong
  let start := if path.startsWith "/" then [] else t.workingDirectory
  let place ← t.follow start (path.splitOn "/")
  match t.file? place with
  | some bytes => return bytes
  | none => throw .isDirectory

/-- The files of a tree by path.  All of them can be read. -/
def toFiles (t : FileTree) : Files where
  read := t.read
  isFile path := (t.read path).isOk

end FileTree

end Z80
