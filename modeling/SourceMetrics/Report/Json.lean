/-
# `Json` — the text of structured reports

A report is made as a value and printed in one line or over several.
Numbers that are measured are kept as they are and printed by a function
the printer is given, so that what the printer does with structure and text
can be stated apart from how a number is written.
-/
import SourceMetrics.Decimal.Writing

namespace SourceMetrics

/-- A structured value with measured numbers of type `α`. -/
inductive Json (α : Type) where
  | null
  | bool (b : Bool)
  | count (n : Nat)
  | amount (x : α)
  | text (s : String)
  | list (items : List (Json α))
  | object (members : List (String × Json α))

namespace Json

variable {α : Type}

/-! ## Text -/

/-- The code of a control character, in four digits of base sixteen. -/
def controlCode (n : Nat) : List Char :=
  let digits := Nat.toDigits 16 n
  List.replicate (4 - digits.length) '0' ++ digits

/-- One character of a text. -/
def escapedChar (c : Char) : List Char :=
  match c with
  | '"' => ['\\', '"']
  | '\\' => ['\\', '\\']
  | '\x08' => ['\\', 'b']
  | '\t' => ['\\', 't']
  | '\n' => ['\\', 'n']
  | '\x0c' => ['\\', 'f']
  | '\r' => ['\\', 'r']
  | c => if c.toNat < 0x20 then ['\\', 'u'] ++ controlCode c.toNat else [c]

/-- A text between quotation marks. -/
def escaped (s : String) : String :=
  String.ofList (['"'] ++ s.toList.flatMap escapedChar ++ ['"'])

/-- Opens an object. -/
def openBrace : String := "\x7b"

/-- Closes an object. -/
def closeBrace : String := "\x7d"

/-! ## In one line -/

mutual
/-- The value in one line without blanks. -/
def compact (number : α → String) : Json α → String
  | null => "null"
  | bool b => if b then "true" else "false"
  | count n => toString n
  | amount x => number x
  | text s => escaped s
  | list [] => "[]"
  | list (v :: rest) => "[" ++ compact number v ++ compactItems number rest ++ "]"
  | object [] => openBrace ++ closeBrace
  | object ((k, v) :: rest) =>
    openBrace ++ escaped k ++ ":" ++ compact number v ++ compactMembers number rest ++ closeBrace

/-- The items of a list after the first. -/
def compactItems (number : α → String) : List (Json α) → String
  | [] => ""
  | v :: rest => "," ++ compact number v ++ compactItems number rest

/-- The members of an object after the first. -/
def compactMembers (number : α → String) : List (String × Json α) → String
  | [] => ""
  | (k, v) :: rest =>
    "," ++ escaped k ++ ":" ++ compact number v ++ compactMembers number rest
end

/-! ## Over several lines -/

/-- The start of a line at a depth of nesting. -/
def newLine (depth : Nat) : String := "\n" ++ String.ofList (List.replicate (2 * depth) ' ')

mutual
/-- The value with a line for each item and member, indented by two blanks
for each level. -/
def pretty (number : α → String) (depth : Nat) : Json α → String
  | null => "null"
  | bool b => if b then "true" else "false"
  | count n => toString n
  | amount x => number x
  | text s => escaped s
  | list [] => "[]"
  | list (v :: rest) =>
    "[" ++ newLine (depth + 1) ++ pretty number (depth + 1) v ++
      prettyItems number (depth + 1) rest ++ newLine depth ++ "]"
  | object [] => openBrace ++ closeBrace
  | object ((k, v) :: rest) =>
    openBrace ++ newLine (depth + 1) ++ escaped k ++ ": " ++ pretty number (depth + 1) v ++
      prettyMembers number (depth + 1) rest ++ newLine depth ++ closeBrace

/-- The items of a list after the first. -/
def prettyItems (number : α → String) (depth : Nat) : List (Json α) → String
  | [] => ""
  | v :: rest => "," ++ newLine depth ++ pretty number depth v ++ prettyItems number depth rest

/-- The members of an object after the first. -/
def prettyMembers (number : α → String) (depth : Nat) : List (String × Json α) → String
  | [] => ""
  | (k, v) :: rest =>
    "," ++ newLine depth ++ escaped k ++ ": " ++ pretty number depth v ++
      prettyMembers number depth rest
end

/-- A float; what is no finite number is written as nothing. -/
def floatText (x : Float) : String := (Decimal.writeFloat? x).getD "null"

end Json
end SourceMetrics
