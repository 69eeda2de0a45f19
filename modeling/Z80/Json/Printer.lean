/-
  Z80.Json.Printer

  Writing JSON text: on one line, or indented by two blanks with a member or
  element to a line.
-/

import Z80.Json.Basic
import Z80.Text.Hex

namespace Z80.Json

/-- One character inside a string literal. -/
def escaped (c : Char) : String :=
  match c with
  | '"' => "\\\""
  | '\\' => "\\\\"
  | '\n' => "\\n"
  | '\r' => "\\r"
  | '\t' => "\\t"
  | '\x08' => "\\b"
  | '\x0c' => "\\f"
  | c => if c.toNat < 0x20 then "\\u" ++ Hex.lower 4 c.toNat else c.toString

/-- A string literal. -/
def quoted (s : String) : String :=
  s.foldl (fun t c => t ++ escaped c) "\"" ++ "\""

/-- A run of digits. -/
def digitsText (ds : List Nat) : String :=
  String.ofList (ds.map (Hex.digit false))

/-- A number literal. -/
def Number.render (n : Number) : String :=
  (if n.negative then "-" else "") ++ digitsText n.whole ++
  (if n.fraction.isEmpty then "" else "." ++ digitsText n.fraction) ++
  match n.exponent with
  | none => ""
  | some (negative, digits) => "e" ++ (if negative then "-" else "") ++ digitsText digits

mutual

/-- A value on one line. -/
def render : Json → String
  | null => "null"
  | bool b => if b then "true" else "false"
  | num n => n.render
  | str s => quoted (s.getD "")
  | arr xs => "[" ++ renderElements xs ++ "]"
  | obj ms => "\x7b" ++ renderMembers ms ++ "\x7d"

/-- Elements with commas between them. -/
def renderElements : List Json → String
  | [] => ""
  | [v] => render v
  | v :: vs => render v ++ "," ++ renderElements vs

/-- Members with commas between them. -/
def renderMembers : List (Option String × Json) → String
  | [] => ""
  | [(name, v)] => quoted (name.getD "") ++ ":" ++ render v
  | (name, v) :: ms => quoted (name.getD "") ++ ":" ++ render v ++ "," ++ renderMembers ms

end

/-- A line break and the indentation of a level. -/
def lineBreak (level : Nat) : String :=
  "\n" ++ String.ofList (List.replicate (2 * level) ' ')

mutual

/-- A value with each element and member on a line of its own. -/
def pretty (level : Nat) : Json → String
  | null => "null"
  | bool b => if b then "true" else "false"
  | num n => n.render
  | str s => quoted (s.getD "")
  | arr [] => "[]"
  | arr (x :: xs) => "[" ++ prettyElements (level + 1) (x :: xs) ++ lineBreak level ++ "]"
  | obj [] => "\x7b\x7d"
  | obj (m :: ms) => "\x7b" ++ prettyMembers (level + 1) (m :: ms) ++ lineBreak level ++ "\x7d"

/-- Elements on lines of their own. -/
def prettyElements (level : Nat) : List Json → String
  | [] => ""
  | [v] => lineBreak level ++ pretty level v
  | v :: vs => lineBreak level ++ pretty level v ++ "," ++ prettyElements level vs

/-- Members on lines of their own. -/
def prettyMembers (level : Nat) : List (Option String × Json) → String
  | [] => ""
  | [(name, v)] => lineBreak level ++ quoted (name.getD "") ++ ": " ++ pretty level v
  | (name, v) :: ms =>
    lineBreak level ++ quoted (name.getD "") ++ ": " ++ pretty level v ++ "," ++
      prettyMembers level ms

end

end Z80.Json
