/-
  Z80.Toml.Document

  TOML documents: the entries that a text as a whole stands for.
-/

import Z80.Toml.Line

namespace Z80.Toml

/-- A document being read: its entries and the table that the last header opened. -/
structure Document where
  entries : Entries := []
  current : List String := []
  deriving Inhabited

namespace Document

/-- The document with one more line. -/
def add? (d : Document) : Line → Option Document
  | .table path => do
    some ⟨← d.entries.openTable path, path.parents ++ [path.name]⟩
  | .element path => do
    some ⟨← d.entries.openElement path, path.parents ++ [path.name]⟩
  | .entry path v => do
    some { d with entries := ← d.entries.within (Entries.add path.name v path.parents) d.current }

/-- The entries of a document made of lines. -/
def ofLines? (lines : List Line) : Option Entries :=
  (lines.foldlM add? {}).map entries

end Document

/-- The entries of a text, which may begin with a byte order mark. -/
def parse? (s : String) : Option Entries :=
  let cs := match s.toList with
    | '\uFEFF' :: cs => cs
    | cs => cs
  (lines? (cs.length + 1) [] cs).bind Document.ofLines?

end Z80.Toml
