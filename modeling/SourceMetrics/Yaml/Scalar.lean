/-
# Scalars of YAML

A scalar is written plain, between quotes or as a block of lines.  Where a
plain or quoted scalar goes over the end of a line, the end is folded: it
becomes a blank, or as many line feeds as there are empty lines.
-/
import SourceMetrics.Yaml.Cursor

namespace SourceMetrics.Yaml

/-- How a scalar is written. -/
inductive Style where
  | plain
  | quoted
  | literal
  | folded
deriving DecidableEq, Repr

/-- What a stretch of blanks and ends of lines within a scalar stands for. -/
def foldStretch (stretch : List Char) : List Char :=
  match stretch.filter isBreak with
  | [] => stretch
  | '\n' :: [] => [' ']
  | '\n' :: more => more
  | breaks => breaks

/-! ## Plain scalars -/

/-- Whether a character is one of those that give structure to a flow. -/
def isFlowIndicator (c : Char) : Bool :=
  c = ',' || c = '[' || c = ']' || c = '\x7b' || c = '\x7d'

/-- The characters of a plain scalar up to a blank or to what ends it. -/
def plainWord (inFlow : Bool) : List Char → Except Fault (List Char)
  | [] => .ok []
  | c :: rest =>
    if isBlank c || isBreak c then .ok []
    else if c = ':' && inFlow && rest.head?.any (fun d => isFlowIndicator d || d = '?') then
      .error .badToken
    else if c = ':' && blankAhead rest then .ok []
    else if inFlow && isFlowIndicator c then .ok []
    else (plainWord inFlow rest).map (c :: ·)

/-- Whether a stretch of blanks holds a tab in the indentation of a line. -/
def hasIndentingTab (indent : Nat) (afterBreak : Bool) (column : Nat) : List Char → Bool
  | [] => false
  | c :: rest =>
    if isBreak c then hasIndentingTab indent true 0 rest
    else (afterBreak && column < indent && c = '\t') ||
      hasIndentingTab indent afterBreak (column + 1) rest

/-- A scalar that was read: its text, the place behind it and whether that
is the start of a line. -/
structure ScalarRead where
  text : List Char
  behind : Cursor
  endsLine : Bool

/-- Goes on with a plain scalar: `done` was read, the last character first,
and `stretch` lies between it and the place. -/
def plainFrom (inFlow : Bool) (indent : Nat) (done stretch : List Char) (c : Cursor) :
    Nat → Except Fault ScalarRead
  | 0 => .error .tooDeep
  | fuel + 1 => do
    let endsLine := stretch.any isBreak
    if c.atFrame || c.char? == some '#' then return ⟨done.reverse, c, endsLine⟩
    let word ← plainWord inFlow c.rest
    if word.isEmpty then return ⟨done.reverse, c, endsLine⟩
    let done := word.reverse ++ (foldStretch stretch).reverse ++ done
    let (stretch, behind) := (c.skip word.length).span (fun x => isBlank x || isBreak x)
    if stretch.isEmpty then return ⟨done.reverse, behind, false⟩
    if hasIndentingTab indent false 0 stretch then .error .badIndentation
    if !inFlow && behind.column < indent then
      return ⟨done.reverse, behind, stretch.any isBreak⟩
    plainFrom inFlow indent done stretch behind fuel

/-- The plain scalar at a place, where lines have to be indented by a number
of columns. -/
def readPlain (inFlow : Bool) (indent : Nat) (c : Cursor) : Except Fault ScalarRead :=
  plainFrom inFlow indent [] [] c (c.rest.length + 1)

/-! ## Quoted scalars -/

/-- The value of a digit in base sixteen. -/
def hexValue? (c : Char) : Option Nat :=
  if '0' ≤ c && c ≤ '9' then some (c.toNat - '0'.toNat)
  else if 'a' ≤ c && c ≤ 'f' then some (c.toNat - 'a'.toNat + 10)
  else if 'A' ≤ c && c ≤ 'F' then some (c.toNat - 'A'.toNat + 10)
  else none

/-- The character that a number of digits in base sixteen give. -/
def hexChar? (digits : List Char) : Option Char := do
  let values ← digits.mapM hexValue?
  let n := values.foldl (fun n d => n * 16 + d) 0
  if n.isValidChar then some (Char.ofNat n) else none

/-- The character that a letter behind a backslash stands for. -/
def shortEscape? : Char → Option Char
  | '0' => some '\x00'
  | 'a' => some '\x07'
  | 'b' => some '\x08'
  | 't' | '\t' => some '\t'
  | 'n' => some '\n'
  | 'v' => some '\x0b'
  | 'f' => some '\x0c'
  | 'r' => some '\r'
  | 'e' => some '\x1b'
  | ' ' => some ' '
  | '"' => some '"'
  | '/' => some '/'
  | '\\' => some '\\'
  | 'N' => some '\u0085'
  | '_' => some '\u00a0'
  | 'L' => some '\u2028'
  | 'P' => some '\u2029'
  | _ => none

/-- How many digits follow a letter behind a backslash. -/
def escapeDigits? : Char → Option Nat
  | 'x' => some 2
  | 'u' => some 4
  | 'U' => some 8
  | _ => none

/-- What stands behind a backslash: the character, and how many characters
it takes. -/
def readEscape : List Char → Except Fault (Char × Nat)
  | [] => .error .badEscape
  | c :: rest =>
    match shortEscape? c, escapeDigits? c with
    | some x, _ => .ok (x, 1)
    | none, some n =>
      if rest.length < n then .error .badEscape
      else
        match hexChar? (rest.take n) with
        | some x => .ok (x, n + 1)
        | none => .error .badEscape
    | none, none => .error .badEscape

/-- Goes on with a quoted scalar: `done` was read, the last character first.
`escaped` says that the end of a line was escaped right before, so that
blanks are dropped. -/
def quotedFrom (quote : Char) (done : List Char) (escaped : Bool) (c : Cursor) :
    Nat → Except Fault ScalarRead
  | 0 => .error .tooDeep
  | fuel + 1 => do
    if c.atFrame then .error .unclosedQuote
    match c.rest with
    | [] => .error .unclosedQuote
    | x :: rest =>
      if isBlank x || isBreak x then
        let (stretch, behind) := c.span (fun y => isBlank y || isBreak y)
        let joined := if escaped then stretch.filter isBreak else foldStretch stretch
        quotedFrom quote (joined.reverse ++ done) false behind fuel
      else if x = quote then
        if quote = '\'' && rest.head? == some quote then
          quotedFrom quote (quote :: done) false (c.skip 2) fuel
        else return ⟨done.reverse, c.past, false⟩
      else if quote = '"' && x = '\\' then
        if rest.head?.any isBreak then quotedFrom quote done true (c.skip 2) fuel
        else
          let (y, used) ← readEscape rest
          quotedFrom quote (y :: done) false (c.skip (used + 1)) fuel
      else quotedFrom quote (x :: done) false c.past fuel

/-- The scalar behind an opening quote. -/
def readQuoted (quote : Char) (c : Cursor) : Except Fault ScalarRead :=
  quotedFrom quote [] false c (c.rest.length + 1)

/-! ## Blocks -/

/-- What is kept of the ends of lines at the end of a block. -/
inductive Chomping where
  | strip
  | clip
  | keep
deriving DecidableEq, Repr

/-- The head of a block: what is kept at its end, and how much deeper than
what is around it its lines are indented, if that is given. -/
structure BlockHead where
  chomping : Chomping
  deeper : Option Nat

/-- The digit that gives the indentation of a block. -/
def readDeeper (c : Cursor) : Except Fault (Option Nat × Cursor) :=
  match c.char? with
  | some d =>
    if d = '0' then .error .badIndentation
    else if '1' ≤ d && d ≤ '9' then .ok (some (d.toNat - '0'.toNat), c.past)
    else .ok (none, c)
  | none => .ok (none, c)

/-- The sign that says what is kept. -/
def readChomping (c : Cursor) : Option Chomping × Cursor :=
  match c.char? with
  | some '+' => (some .keep, c.past)
  | some '-' => (some .strip, c.past)
  | _ => (none, c)

/-- The head of a block, and the place behind its line. -/
def readBlockHead (c : Cursor) : Except Fault (BlockHead × Cursor) := do
  let (before, c) := readChomping c
  let (deeper, c) ← readDeeper c
  let (after, c) := if before.isNone then readChomping c else (none, c)
  let c := c.skipWhile isBlank
  let c := if c.char? == some '#' then c.skipWhile (!isBreak ·) else c
  let head : BlockHead := ⟨(before.or after).getD .clip, deeper⟩
  match c.char? with
  | none => return (head, c)
  | some x => if isBreak x then return (head, c.past) else .error .badToken

/-- The empty lines at a place, and the place at the start of the next
content, whose indentation is eaten up to `indent` columns, or wholly where
none is given.  Also the deepest indentation seen. -/
def emptyLines (indent : Option Nat) (deepest : Nat) (breaks : List Char) (c : Cursor) :
    Nat → Except Fault (List Char × Nat × Cursor)
  | 0 => .error .tooDeep
  | fuel + 1 => do
    let blanks := c.rest.takeWhile (· = ' ')
    let room := match indent with
      | some n => min blanks.length (n - c.column)
      | none => blanks.length
    let c := c.skip room
    let deepest := max deepest c.column
    let inside := match indent with
      | some n => decide (c.column < n)
      | none => true
    if inside && c.char? == some '\t' then .error .badIndentation
    match c.char? with
    | some x =>
      if isBreak x then emptyLines indent deepest (breaks ++ [x]) c.past fuel
      else return (breaks, deepest, c)
    | none => return (breaks, deepest, c)

/-- The end of the last line read in a block, the empty lines behind it and
whether that line started with a blank. -/
structure BlockTail where
  ending : List Char
  breaks : List Char
  wasIndented : Bool

/-- What stands between two lines of a block. -/
def joinLines (style : Style) (tail : BlockTail) (nextIsIndented : Bool) : List Char :=
  let folds := style == .folded && tail.ending == ['\n'] && !tail.wasIndented && !nextIsIndented
  if folds then (if tail.breaks.isEmpty then [' '] else tail.breaks)
  else tail.ending ++ tail.breaks

/-- Goes on with the lines of a block: `done` was read, the last character
first. -/
def blockFrom (style : Style) (indent : Nat) (done : List Char) (tail : BlockTail) (c : Cursor) :
    Nat → Except Fault (List Char × BlockTail × Cursor)
  | 0 => .error .tooDeep
  | fuel + 1 => do
    if c.column ≠ indent || c.rest.isEmpty then return (done.reverse, tail, c)
    let isIndented := c.rest.head?.any isBlank
    let (line, behind) := c.span (!isBreak ·)
    let done := line.reverse ++ (joinLines style tail isIndented).reverse ++ done
    let ending := behind.rest.take 1
    let (breaks, _, next) ← emptyLines (some indent) 0 [] behind.past (behind.rest.length + 1)
    blockFrom style indent done ⟨ending, breaks, isIndented⟩ next fuel

/-- The block behind its sign, in surroundings indented by `around` columns,
if there are any. -/
def readBlock (style : Style) (around : Option Nat) (c : Cursor) : Except Fault ScalarRead := do
  let (head, c) ← readBlockHead c
  let least := match around with
    | some n => n + 1
    | none => 1
  let fixed := head.deeper.map fun n => around.getD 0 + n
  let (breaks, deepest, c) ← emptyLines fixed 0 [] c (c.rest.length + 1)
  let indent := fixed.getD (max deepest least)
  let (text, tail, c) ← blockFrom style indent [] ⟨[], breaks, false⟩ c (c.rest.length + 1)
  let kept := match head.chomping with
    | .strip => []
    | .clip => tail.ending
    | .keep => tail.ending ++ tail.breaks
  return ⟨text ++ kept, c, true⟩

end SourceMetrics.Yaml
