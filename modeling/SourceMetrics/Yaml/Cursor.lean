/-
# `Cursor` — a place in a text of settings

Settings are written in YAML.  Its reader needs to know, besides what
follows, the line and the column it has come to: indentation gives
structure.  All ends of lines but two rare ones are made line feeds
beforehand, so that each is one character.
-/
namespace SourceMetrics.Yaml

/-- Why a text is no YAML. -/
inductive Fault where
  | badCharacter
  | badIndentation
  | badToken
  | badEscape
  | badDirective
  | badTag
  | badAnchor
  | unclosedQuote
  | missingColon
  | misplacedKey
  | misplacedValue
  | misplacedEntry
  | unexpectedToken
  | unknownAnchor
  | tooDeep
deriving DecidableEq, Repr

/-! ## Characters -/

/-- The two characters that end a line beside the line feed. -/
def isSeparator (c : Char) : Bool := c = '\u2028' || c = '\u2029'

/-- Whether a character ends a line. -/
def isBreak (c : Char) : Bool := c = '\n' || isSeparator c

/-- Whether a character is a blank within a line. -/
def isBlank (c : Char) : Bool := c = ' ' || c = '\t'

/-- Whether what follows starts with a blank, ends a line or is nothing. -/
def blankAhead : List Char → Bool
  | [] => true
  | c :: _ => isBlank c || isBreak c

/-- Whether a character may occur at all. -/
def isAllowed (c : Char) : Bool :=
  let n := c.toNat
  n = 0x09 || n = 0x0a || n = 0x0d || (0x20 ≤ n && n ≤ 0x7e) || n = 0x85 ||
    (0xa0 ≤ n && n ≤ 0xd7ff) || (0xe000 ≤ n && n ≤ 0xfffd) || 0x10000 ≤ n

/-- Makes every end of a line one character. -/
def uniteBreaks : List Char → List Char
  | '\r' :: '\n' :: rest => '\n' :: uniteBreaks rest
  | c :: rest => (if c = '\r' || c = '\u0085' then '\n' else c) :: uniteBreaks rest
  | [] => []

/-- The mark of byte order. -/
def byteOrderMark : Char := '\ufeff'

/-! ## Places -/

/-- A place in a text: what follows, and where it is. -/
structure Cursor where
  rest : List Char
  line : Nat
  column : Nat
  /-- How many bytes came before, each end of a line counted as one. -/
  index : Nat

namespace Cursor

/-- The start of a text. -/
def start (text : List Char) : Cursor := ⟨text, 0, 0, 0⟩

/-- The place behind one character. -/
def past (c : Cursor) : Cursor :=
  match c.rest with
  | [] => c
  | x :: rest =>
    if isBreak x then ⟨rest, c.line + 1, 0, c.index + 1⟩
    else ⟨rest, c.line, c.column + 1, c.index + x.utf8Size⟩

/-- The place behind a number of characters. -/
def skip (c : Cursor) : Nat → Cursor
  | 0 => c
  | n + 1 => c.past.skip n

/-- The longest run of characters that pass a test, and the place behind. -/
def span (c : Cursor) (test : Char → Bool) : List Char × Cursor :=
  let run := c.rest.takeWhile test
  (run, c.skip run.length)

/-- The place behind the longest run of characters that pass a test. -/
def skipWhile (c : Cursor) (test : Char → Bool) : Cursor := (c.span test).2

/-- The character at the place. -/
def char? (c : Cursor) : Option Char := c.rest.head?

/-- Whether some characters follow. -/
def hasAhead (c : Cursor) (word : String) : Bool := word.toList.isPrefixOf c.rest

/-- Whether a line of the document's frame, three hyphens or dots, starts
here. -/
def atFrame (c : Cursor) : Bool :=
  c.column = 0 && (c.hasAhead "---" || c.hasAhead "...") && blankAhead (c.rest.drop 3)

end Cursor
end SourceMetrics.Yaml
