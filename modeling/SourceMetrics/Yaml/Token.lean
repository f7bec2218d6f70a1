/-
# `Token` — what a text of settings is made of

Some tokens stand in the text: brackets, signs, names and scalars.  Others
follow from the indentation, which opens and closes blocks.  That a token
was a key shows only at the colon behind it; so the place of each possible
key is kept, and the colon puts the tokens that are missing before it
(`Lexer.readValue`).  A key that needs no sign of its own lies on one line,
is shorter than a limit, and must be one where it starts a line of a block.
-/
import SourceMetrics.Yaml.Scalar

namespace SourceMetrics.Yaml

inductive Token where
  | version
  | tagPrefix (handle text : List Char)
  | documentStart
  | documentEnd
  | blockSequence
  | blockMapping
  | blockEnd
  | flowSequence
  | flowSequenceEnd
  | flowMapping
  | flowMappingEnd
  | blockEntry
  | flowEntry
  | key
  | value
  | alias (name : List Char)
  | anchor (name : List Char)
  | tag (handle suffix : List Char)
  | scalar (text : List Char) (style : Style)
deriving DecidableEq, Repr

/-! ## Names and tags -/

/-- Whether a character may stand in a name. -/
def isNameChar (c : Char) : Bool := c.isAlphanum || c = '_' || c = '-'

/-- Whether a character may stand in a tag.  Within angle brackets there are
some more. -/
def isTagChar (inBrackets : Bool) (c : Char) : Bool :=
  isNameChar c || ";/?:@&=+$.!~*'()".toList.contains c || (inBrackets && ",[]".toList.contains c)

/-- Whether a name may end before what follows. -/
def nameEndAhead (rest : List Char) : Bool :=
  blankAhead rest || rest.head?.any ("?:,]\x7d%@\x60".toList.contains ·)

/-- The byte that a percent sign and two digits give. -/
def escapedByte? : List Char → Option (Nat × List Char)
  | '%' :: high :: low :: rest => do
    let high ← hexValue? high
    let low ← hexValue? low
    return (high * 16 + low, rest)
  | _ => none

/-- How many bytes follow the first byte of a character, and the bits of the
character that it holds. -/
def firstByte? (n : Nat) : Option (Nat × Nat) :=
  if n < 0x80 then some (0, n)
  else if n < 0xc0 then none
  else if n < 0xe0 then some (1, n - 0xc0)
  else if n < 0xf0 then some (2, n - 0xe0)
  else if n < 0xf8 then some (3, n - 0xf0)
  else none

/-- Adds the bits of a number of following bytes. -/
def moreBytes? (bits : Nat) (text : List Char) : Nat → Option (Nat × List Char)
  | 0 => some (bits, text)
  | n + 1 => do
    let (byte, rest) ← escapedByte? text
    if 0x80 ≤ byte && byte < 0xc0 then moreBytes? (bits * 64 + (byte - 0x80)) rest n else none

/-- The character that bytes behind percent signs give, and what follows.
Bytes that are not the shortest form of a character give U+FFFD. -/
def escapedChar? (text : List Char) : Option (Char × List Char) := do
  let (byte, rest) ← escapedByte? text
  let (more, bits) ← firstByte? byte
  let (n, rest) ← moreBytes? bits rest more
  let x := Char.ofNat n
  return (if n.isValidChar && x.utf8Size = more + 1 then x else '\ufffd', rest)

/-- The characters of a tag at the start of a text, and what follows. -/
def tagText (inBrackets : Bool) (text : List Char) :
    Nat → Except Fault (List Char × List Char)
  | 0 => .error .tooDeep
  | fuel + 1 =>
    match text with
    | [] => .ok ([], [])
    | c :: rest =>
      if c = '%' then
        match escapedChar? text with
        | none => .error .badTag
        | some (x, rest) => (tagText inBrackets rest fuel).map fun (xs, rest) => (x :: xs, rest)
      else if isTagChar inBrackets c then
        (tagText inBrackets rest fuel).map fun (xs, rest) => (c :: xs, rest)
      else .ok ([], text)

/-- What counts of the text of a tag: all before the first NUL. -/
def beforeNul (text : List Char) : List Char := text.takeWhile (· ≠ '\x00')

namespace Cursor

/-- The characters of a tag at a place, and the place behind. -/
def readTagText (c : Cursor) (inBrackets : Bool) : Except Fault (List Char × Cursor) := do
  let (text, rest) ← tagText inBrackets c.rest (c.rest.length + 1)
  return (text, c.skip (c.rest.length - rest.length))

/-- The handle at a place: an exclamation mark, or a name between two. -/
def readHandle (c : Cursor) : Except Fault (List Char × Cursor) :=
  if c.char? == some '!' then
    let (name, behind) := c.past.span isNameChar
    if behind.char? == some '!' then .ok ('!' :: name ++ ['!'], behind.past)
    else .ok ('!' :: name, behind)
  else .error .badTag

/-- The name behind the sign of an alias or an anchor. -/
def readName (c : Cursor) : Except Fault (List Char × Cursor) :=
  let (name, behind) := c.past.span isNameChar
  if name.isEmpty || !nameEndAhead behind.rest then .error .badAnchor else .ok (name, behind)

/-- The tag at a place. -/
def readTag (c : Cursor) (inFlow : Bool) : Except Fault (Token × Cursor) := do
  let (token, behind) ←
    if c.hasAhead "!<" then do
      let (text, behind) ← (c.skip 2).readTagText true
      if text.isEmpty || behind.char? != some '>' then .error .badTag
      pure (Token.tag [] (beforeNul text), behind.past)
    else do
      let (handle, behind) ← c.readHandle
      let (text, after) ← behind.readTagText false
      if 1 < handle.length && handle.getLast? == some '!' then
        if text.isEmpty then .error .badTag else pure (Token.tag handle (beforeNul text), after)
      else
        let suffix := beforeNul (handle.drop 1 ++ text)
        pure (if suffix.isEmpty then Token.tag [] ['!'] else Token.tag ['!'] suffix, after)
  if blankAhead behind.rest || (inFlow && behind.char? == some ',') then return (token, behind)
  .error .badTag

/-- The digits of a version number. -/
def readNumber (c : Cursor) : Except Fault (Nat × Cursor) :=
  let (digits, behind) := c.span Char.isDigit
  if digits.isEmpty || 9 < digits.length then .error .badDirective
  else .ok (digits.foldl (fun n d => n * 10 + (d.toNat - '0'.toNat)) 0, behind)

/-- The version behind the name of its directive. -/
def readVersion (c : Cursor) : Except Fault (Token × Cursor) := do
  let (major, c) ← (c.skipWhile isBlank).readNumber
  if c.char? != some '.' then .error .badDirective
  let (minor, c) ← c.past.readNumber
  if major = 1 && (minor = 1 || minor = 2) then return (.version, c)
  .error .badDirective

/-- The handle and the text it stands for behind the name of its
directive. -/
def readTagPrefix (c : Cursor) : Except Fault (Token × Cursor) := do
  let (handle, c) ← (c.skipWhile isBlank).readHandle
  if handle != ['!'] && (handle.length = 1 || handle.getLast? != some '!') then .error .badDirective
  if !c.char?.any isBlank then .error .badDirective
  let (text, c) ← (c.skipWhile isBlank).readTagText true
  if text.isEmpty || !blankAhead c.rest then .error .badDirective
  return (.tagPrefix handle (beforeNul text), c)

/-- The directive at a place, and the place behind its line. -/
def readDirective (c : Cursor) : Except Fault (Token × Cursor) := do
  let (name, c) := c.past.span isNameChar
  if !blankAhead c.rest then .error .badDirective
  let (token, c) ←
    if name = "YAML".toList then c.readVersion
    else if name = "TAG".toList then c.readTagPrefix
    else .error .badDirective
  let c := c.skipWhile isBlank
  let c := if c.char? == some '#' then c.skipWhile (!isBreak ·) else c
  if c.char?.any (!isBreak ·) then .error .badDirective
  return (token, c.past)

end Cursor

/-! ## Lexing -/

/-- A place where a key without a sign of its own may have started. -/
structure KeyPlace where
  /-- Whether there has to be a key. -/
  required : Bool
  /-- How many tokens came before. -/
  before : Nat
  line : Nat
  column : Nat
  index : Nat

/-- How many bytes long a key may be. -/
def KeyPlace.limit : Nat := 1024

/-- Whether a key that started there can still end at a place. -/
def KeyPlace.reaches (k : KeyPlace) (c : Cursor) : Bool :=
  c.line ≤ k.line && c.index ≤ k.index + limit

/-- What was read up to a place. -/
structure Lexer where
  cursor : Cursor
  /-- The tokens so far, the latest first. -/
  tokens : List Token
  /-- The columns of the open blocks, the innermost first. -/
  indents : List Nat
  /-- The possible key among the tokens of the innermost bracket. -/
  key : Option KeyPlace
  /-- Those of the brackets around it and of the block around them all. -/
  outerKeys : List (Option KeyPlace)
  /-- Whether a key may start here. -/
  keyAllowed : Bool

namespace Lexer

/-- The start of a text. -/
def start (text : List Char) : Lexer := ⟨Cursor.start text, [], [], none, [], true⟩

/-- Whether the place lies within brackets. -/
def inFlow (s : Lexer) : Bool := !s.outerKeys.isEmpty

/-- Adds a token and goes on to a place. -/
def push (s : Lexer) (token : Token) (behind : Cursor) : Lexer :=
  { s with tokens := token :: s.tokens, cursor := behind }

/-- Puts a token before all but a number of the tokens so far. -/
def insert (s : Lexer) (before : Nat) (token : Token) : Lexer :=
  let later := s.tokens.length - before
  { s with tokens := s.tokens.take later ++ token :: s.tokens.drop later }

/-- Opens a block at a column, unless there is one so deep already.  The
token goes before all but a number of tokens. -/
def openBlock (s : Lexer) (column : Nat) (token : Token) (before : Nat) : Lexer :=
  if s.inFlow || s.indents.head?.any (column ≤ ·) then s
  else { s.insert before token with indents := column :: s.indents }

/-- Opens a block at the place. -/
def openBlockHere (s : Lexer) (token : Token) : Lexer :=
  s.openBlock s.cursor.column token s.tokens.length

/-- Closes the open blocks that pass a test. -/
def closeBlocks (s : Lexer) (test : Nat → Bool) : Lexer :=
  if s.inFlow then s
  else
    let closed := s.indents.takeWhile test
    { s with
      tokens := closed.map (fun _ => Token.blockEnd) ++ s.tokens
      indents := s.indents.drop closed.length }

/-- The key at a place, dropped where it can no longer be one. -/
def liveKey (c : Cursor) : Option KeyPlace → Except Fault (Option KeyPlace)
  | none => .ok none
  | some k =>
    if k.reaches c then .ok (some k)
    else if k.required then .error .missingColon
    else .ok none

/-- Drops all keys that can no longer be one. -/
def dropStaleKeys (s : Lexer) : Except Fault Lexer := do
  let key ← liveKey s.cursor s.key
  let outerKeys ← s.outerKeys.mapM (liveKey s.cursor)
  return { s with key, outerKeys }

/-- Gives up the possible key. -/
def dropKey (s : Lexer) : Except Fault Lexer :=
  if s.key.any (·.required) then .error .missingColon else .ok { s with key := none }

/-- Keeps the place as that of a possible key, and sets whether a key may
start behind the next token. -/
def saveKey (s : Lexer) (allowedBehind : Bool) : Except Fault Lexer :=
  if s.keyAllowed then do
    let c := s.cursor
    let required := !s.inFlow && s.indents.head? == some c.column
    let s ← s.dropKey
    return { s with
      key := some ⟨required, s.tokens.length, c.line, c.column, c.index⟩
      keyAllowed := allowedBehind }
  else .ok { s with keyAllowed := allowedBehind }

/-- Gives up the possible key and sets whether a key may start behind the
next token. -/
def withoutKey (s : Lexer) (allowedBehind : Bool) : Except Fault Lexer := do
  return { ← s.dropKey with keyAllowed := allowedBehind }

/-- Skips blanks, comments and ends of lines.  A mark of byte order may stand
at the start of a line, where it takes a column. -/
def skipBetween (s : Lexer) : Nat → Lexer
  | 0 => s
  | fuel + 1 =>
    let c := s.cursor
    let c := if c.column = 0 && c.char? == some byteOrderMark then c.past else c
    let c := c.skipWhile fun x => x = ' ' || (x = '\t' && (s.inFlow || !s.keyAllowed))
    let c := if c.char? == some '#' then c.skipWhile (!isBreak ·) else c
    if c.char?.any isBreak then
      { s with cursor := c.past, keyAllowed := s.keyAllowed || !s.inFlow }.skipBetween fuel
    else { s with cursor := c }

/-- Reads a token that stands outside of any block. -/
def readFrame (s : Lexer) (token : Token) (behind : Cursor) : Except Fault Lexer := do
  return (← (s.closeBlocks fun _ => true).withoutKey false).push token behind

/-- Reads an opening bracket. -/
def openFlow (s : Lexer) (token : Token) : Except Fault Lexer := do
  let s ← s.saveKey true
  return { s.push token s.cursor.past with key := none, outerKeys := s.key :: s.outerKeys }

/-- Reads a closing bracket. -/
def closeFlow (s : Lexer) (token : Token) : Except Fault Lexer := do
  let s := (← s.withoutKey false).push token s.cursor.past
  match s.outerKeys with
  | [] => return s
  | key :: outerKeys => return { s with key, outerKeys }

/-- Reads the hyphen before an entry. -/
def readEntry (s : Lexer) : Except Fault Lexer := do
  if !s.inFlow && !s.keyAllowed then .error .misplacedEntry
  return (← (s.openBlockHere .blockSequence).withoutKey true).push .blockEntry s.cursor.past

/-- Reads the question mark before a key. -/
def readKey (s : Lexer) : Except Fault Lexer := do
  if !s.inFlow && !s.keyAllowed then .error .misplacedKey
  return (← (s.openBlockHere .blockMapping).withoutKey (!s.inFlow)).push .key s.cursor.past

/-- Reads the colon before a value. -/
def readValue (s : Lexer) : Except Fault Lexer :=
  match s.key with
  | some k =>
    let s := (s.insert k.before .key).openBlock k.column .blockMapping k.before
    .ok ({ s with key := none, keyAllowed := false }.push .value s.cursor.past)
  | none =>
    if s.inFlow then .ok ({ s with keyAllowed := false }.push .value s.cursor.past)
    else if s.keyAllowed then
      .ok ((s.openBlockHere .blockMapping).push .value s.cursor.past)
    else .error .misplacedValue

/-- Adds a scalar that was read. -/
def pushScalar (s : Lexer) (style : Style) (read : ScalarRead) : Lexer :=
  let s := s.push (.scalar read.text style) read.behind
  if read.endsLine then { s with keyAllowed := true } else s

/-- Whether a plain scalar may start with a character. -/
def startsPlain (s : Lexer) (x : Char) (rest : List Char) : Bool :=
  if x = '-' then !rest.head?.any isBlank
  else if x = '?' || x = ':' then !s.inFlow && !blankAhead rest
  else !",[]\x7b\x7d#&*!|>'\"%@\x60\t".toList.contains x

/-- How far lines of a plain scalar have to be indented. -/
def plainIndent (s : Lexer) : Nat := s.indents.head?.elim 0 (· + 1)

/-- Reads a token that starts with a character. -/
def readToken (s : Lexer) (x : Char) (rest : List Char) : Except Fault Lexer := do
  let c := s.cursor
  if c.column = 0 && x = '%' then
    let (token, behind) ← c.readDirective
    s.readFrame token behind
  else if c.atFrame then
    s.readFrame (if x = '-' then .documentStart else .documentEnd) (c.skip 3)
  else if x = '[' then s.openFlow .flowSequence
  else if x = '\x7b' then s.openFlow .flowMapping
  else if x = ']' then s.closeFlow .flowSequenceEnd
  else if x = '\x7d' then s.closeFlow .flowMappingEnd
  else if x = ',' then return (← s.withoutKey true).push .flowEntry c.past
  else if x = '-' && blankAhead rest then s.readEntry
  else if x = '?' && (s.inFlow || blankAhead rest) then s.readKey
  else if x = ':' && (s.inFlow || blankAhead rest) then s.readValue
  else if x = '*' then
    let (name, behind) ← c.readName
    return (← s.saveKey false).push (.alias name) behind
  else if x = '&' then
    let (name, behind) ← c.readName
    return (← s.saveKey false).push (.anchor name) behind
  else if x = '!' then
    let (token, behind) ← c.readTag s.inFlow
    return (← s.saveKey false).push token behind
  else if x = '|' && !s.inFlow then
    return (← s.withoutKey true).pushScalar .literal (← readBlock .literal s.indents.head? c.past)
  else if x = '>' && !s.inFlow then
    return (← s.withoutKey true).pushScalar .folded (← readBlock .folded s.indents.head? c.past)
  else if x = '\'' || x = '"' then
    return (← s.saveKey false).pushScalar .quoted (← readQuoted x c.past)
  else if s.startsPlain x rest then
    return (← s.saveKey false).pushScalar .plain (← readPlain s.inFlow s.plainIndent c)
  else .error .badToken

/-- Reads what is left at the end of a text. -/
def finish (s : Lexer) : Except Fault (List Token) := do
  return (← (s.closeBlocks fun _ => true).dropKey).tokens.reverse

/-- Reads all tokens from a place on. -/
def readAll (s : Lexer) : Nat → Except Fault (List Token)
  | 0 => .error .tooDeep
  | fuel + 1 => do
    let s ← (s.skipBetween (s.cursor.rest.length + 1)).dropStaleKeys
    let column := s.cursor.column
    let s := s.closeBlocks (column < ·)
    match s.cursor.rest with
    | [] => s.finish
    | x :: rest => (← s.readToken x rest).readAll fuel

end Lexer

/-- The tokens of a text. -/
def tokens (text : List Char) : Except Fault (List Token) := do
  if !text.all isAllowed then .error .badCharacter
  let united := uniteBreaks text
  (Lexer.start united).readAll (united.length + 1)

end SourceMetrics.Yaml
