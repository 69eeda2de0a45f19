/-
  Z80.Toml.Line

  The lines of a TOML document: headers of tables, headers of elements of arrays
  of tables, and entries.

  Arrays and tables in braces nest at most `maxDepth` deep, and no key has more
  parts than that.
-/

import Z80.Toml.Literal

namespace Z80.Toml

/-- How deep values nest, and how many parts a key has. -/
def maxDepth : Nat := 79

/-- A line of a document. -/
inductive Line where
  /-- The header of a table. -/
  | table (path : Path)
  /-- The header of an element of an array of tables. -/
  | element (path : Path)
  | entry (path : Path) (value : Toml)
  deriving Repr

/-! ## Blanks -/

/-- The text without blanks, ends of lines and comments in front; `inComment` says
    that it begins within a comment.  `none` if a comment has a control character
    in it. -/
def skipBlanks? (inComment : Bool) : List Char → Option (List Char)
  | [] => some []
  | '\n' :: cs => skipBlanks? false cs
  | '\r' :: '\n' :: cs => skipBlanks? false cs
  | '#' :: cs => skipBlanks? true cs
  | c :: cs =>
    if inComment then
      if isText c then skipBlanks? true cs else none
    else if isSpace c then skipBlanks? false cs
    else some (c :: cs)

/-- The text behind the end of a line, before which only spaces and a comment may
    stand.  The end of the text ends a line. -/
def endLine? (inComment : Bool) : List Char → Option (List Char)
  | [] => some []
  | '\n' :: cs => some cs
  | '\r' :: '\n' :: cs => some cs
  | '#' :: cs => endLine? true cs
  | c :: cs =>
    if inComment then
      if isText c then endLine? true cs else none
    else if isSpace c then endLine? false cs
    else none

/-! ## Keys -/

/-- One part of a key. -/
def name? : List Char → Option (String × List Char)
  | '"' :: cs => basic? [] cs
  | '\'' :: cs => literal? [] cs
  | cs =>
    let name := cs.takeWhile isBare
    if name.isEmpty then none else some (String.ofList name, cs.dropWhile isBare)

/-- A key of at most `fuel` parts with points between them, and spaces around
    each. -/
def names? : Nat → List Char → Option (List String × List Char)
  | 0, _ => none
  | fuel + 1, cs => do
    let (name, cs) ← name? (cs.dropWhile isSpace)
    match cs.dropWhile isSpace with
    | '.' :: cs => (names? fuel cs).map fun r => (name :: r.1, r.2)
    | cs => some ([name], cs)

/-- A key with the spaces around it. -/
def path? (cs : List Char) : Option (Path × List Char) := do
  let (names, cs) ← names? maxDepth cs
  some (⟨names.dropLast, ← names.getLast?⟩, cs)

/-! ## Values -/

/-- The elements of an array from behind its bracket or a comma.  A comma may
    stand behind the last one. -/
def elements? (value? : List Char → Option (Toml × List Char)) :
    Nat → List Toml → List Char → Option (List Toml × List Char)
  | 0, _, _ => none
  | fuel + 1, found, cs => do
    match ← skipBlanks? false cs with
    | ']' :: cs => some (found.reverse, cs)
    | cs =>
      let (v, cs) ← value? cs
      match ← skipBlanks? false cs with
      | ',' :: cs => elements? value? fuel (v :: found) cs
      | ']' :: cs => some ((v :: found).reverse, cs)
      | _ => none

/-- The entries of a table in braces from the first one on. -/
def entries? (value? : List Char → Option (Toml × List Char)) :
    Nat → Entries → List Char → Option (Entries × List Char)
  | 0, _, _ => none
  | fuel + 1, found, cs => do
    let (path, cs) ← path? cs
    let (v, cs) ← value? ((← after? '=' cs).dropWhile isSpace)
    let found ← found.add path.name v path.parents
    match cs.dropWhile isSpace with
    | ',' :: cs => entries? value? fuel found cs
    | '\x7d' :: cs => some (found, cs)
    | _ => none

/-- A value in which arrays and tables nest at most so deep. -/
def value? : Nat → List Char → Option (Toml × List Char)
  | depth + 1, '[' :: cs =>
    (elements? (value? depth) (cs.length + 1) [] cs).map fun r => (.array r.1, r.2)
  | depth + 1, '\x7b' :: cs =>
    match cs.dropWhile isSpace with
    | '\x7d' :: cs => some (.table .inline [], cs)
    | cs =>
      (entries? (value? depth) (cs.length + 1) [] cs).map fun r => (.table .inline r.1, r.2)
  | _, cs => scalarValue? cs

/-! ## Lines -/

/-- The line that a text begins with, without blanks in front. -/
def line? : List Char → Option (Line × List Char)
  | '[' :: '[' :: cs => do
    let (path, cs) ← path? cs
    some (.element path, ← endLine? false (← after? ']' (← after? ']' cs)))
  | '[' :: cs => do
    let (path, cs) ← path? cs
    some (.table path, ← endLine? false (← after? ']' cs))
  | cs => do
    let (path, cs) ← path? cs
    let (v, cs) ← value? maxDepth ((← after? '=' cs).dropWhile isSpace)
    some (.entry path v, ← endLine? false cs)

/-- The lines of a text.  `fuel` bounds their number; the length of the text is
    enough. -/
def lines? : Nat → List Line → List Char → Option (List Line)
  | 0, _, _ => none
  | fuel + 1, found, cs => do
    match ← skipBlanks? false cs with
    | [] => some found.reverse
    | cs =>
      let (line, cs) ← line? cs
      lines? fuel (line :: found) cs

end Z80.Toml
