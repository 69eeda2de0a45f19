/-
  Z80.Toml.Basic

  TOML values and the tables of a document under construction.

  A table remembers how it came to be, because that decides what may be added to
  it: a table may have one header of its own, a table made by dotted keys grows
  by dotted keys only, and a table in braces is complete.
-/

namespace Z80

/-- How a table came to be. -/
inductive Toml.Origin where
  /-- By a header of its own, or as an element of an array of tables. -/
  | header
  /-- As a part of a longer header. -/
  | implied
  /-- As a part of a dotted key. -/
  | dotted
  /-- As a value in braces. -/
  | inline
  deriving DecidableEq, Repr

/-- A TOML value.  Of a date or a time nothing is kept but that it is one. -/
inductive Toml where
  | text (s : String)
  | int (i : Int)
  | float (f : Float)
  | bool (b : Bool)
  | dateTime
  | array (xs : List Toml)
  | table (origin : Toml.Origin) (entries : List (String × Toml))
  /-- An array of tables written by headers, the latest first. -/
  | tables (elements : List (List (String × Toml)))
  deriving Repr, Inhabited

namespace Toml

/-- The entries of a table: names with their values, no name twice. -/
abbrev Entries :=
  List (String × Toml)

/-- The place of an entry or a table: the tables that lead to it and its name. -/
structure Path where
  parents : List String
  name : String
  deriving DecidableEq, Repr

namespace Entries

/-- The entries with a value for a name in place of the one before, if any. -/
def put (name : String) (v : Toml) : Entries → Entries
  | [] => [(name, v)]
  | (other, w) :: es =>
    if name = other then (name, v) :: es else (other, w) :: put name v es

theorem lookup_put (name other : String) (v : Toml) (es : Entries) :
    (put name v es).lookup other = if other = name then some v else es.lookup other := by
  induction es with
  | nil =>
    by_cases h : other = name
    · simp [put, h]
    · simp [put, List.lookup_cons, beq_false_of_ne h, h]
  | cons e es ih =>
    obtain ⟨key, w⟩ := e
    by_cases hk : name = key
    · subst hk
      by_cases h : other = name
      · simp [put, h]
      · simp [put, List.lookup_cons, beq_false_of_ne h, h]
    · by_cases ho : other = key
      · subst ho
        simp [put, hk, Ne.symm hk]
      · simp [put, hk, List.lookup_cons, beq_false_of_ne ho, ih]

/-! ## Adding to a table -/

/-- The entries with a new one whose name is `name`, below the tables `parents`
    of a dotted key.  The table that takes the entry must have been made by dotted
    keys; those on the way may also be implied by a header, or the last element
    of an array of tables.  `none` if the name is taken or a table is closed. -/
def add (name : String) (v : Toml) : List String → Entries → Option Entries
  | [], es => if (es.lookup name).isSome then none else some (es.put name v)
  | parent :: parents, es =>
    match es.lookup parent with
    | none => (add name v parents []).map fun inner => es.put parent (.table .dotted inner)
    | some (.table origin inner) =>
      if origin = .dotted ∨ (origin = .implied ∧ parents ≠ []) then
        (add name v parents inner).map fun inner => es.put parent (.table origin inner)
      else none
    | some (.tables (last :: earlier)) =>
      if parents = [] then none
      else (add name v parents last).map fun last => es.put parent (.tables (last :: earlier))
    | some _ => none

/-- The entries with a change made in the table that the tables of a header lead
    to: the last element of an array of tables, and any table but one in braces.
    Tables that are missing are made. -/
def within (change : Entries → Option Entries) : List String → Entries → Option Entries
  | [], es => change es
  | parent :: parents, es =>
    match es.lookup parent with
    | none => (within change parents []).map fun inner => es.put parent (.table .implied inner)
    | some (.table origin inner) =>
      if origin = .inline then none
      else (within change parents inner).map fun inner => es.put parent (.table origin inner)
    | some (.tables (last :: earlier)) =>
      (within change parents last).map fun last => es.put parent (.tables (last :: earlier))
    | some _ => none

/-- The entries with a table opened by its header.  `none` if there is one of the
    name already, unless it is only implied. -/
def openTable (p : Path) : Entries → Option Entries :=
  within (fun es =>
    match es.lookup p.name with
    | none => some (es.put p.name (.table .header []))
    | some (.table .implied inner) => some (es.put p.name (.table .header inner))
    | some _ => none) p.parents

/-- The entries with a new element in an array of tables. -/
def openElement (p : Path) : Entries → Option Entries :=
  within (fun es =>
    match es.lookup p.name with
    | none => some (es.put p.name (.tables [[]]))
    | some (.tables elements) => some (es.put p.name (.tables ([] :: elements)))
    | some _ => none) p.parents

end Entries

end Toml

end Z80
