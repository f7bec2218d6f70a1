/-
# `Node` — the values a text of settings holds

The tokens of a text are read as a tree of scalars, sequences and mappings,
each kind of block and bracket by a function of its own that gives what is
left behind it.  An anchor gives a node a number by which an alias names it:
the count of names known before.  A name that is given a second time takes
such a number again, and of several nodes with one number an alias means the
last (`Document.target?`).
-/
import SourceMetrics.Yaml.Token

namespace SourceMetrics.Yaml

inductive Node where
  | scalar (text : List Char) (style : Style) (tag : List Char)
  | sequence (items : List Node)
  | mapping (pairs : List (Node × Node))
  | alias (number : Nat)
deriving Inhabited

namespace Node

/-- What stands where nothing is written. -/
def empty : Node := .scalar [] .plain []

/-- Whether nothing is written. -/
def isEmpty : Node → Bool
  | .scalar text style _ => text.isEmpty && style == .plain
  | _ => false

end Node

/-- What was met while reading: the tags' handles, the anchors' names with
their numbers, and the numbers of all anchors in the order of the text. -/
structure Names where
  handles : List (List Char × List Char)
  anchors : List (List Char × Nat)
  numbers : List Nat
  /-- The nodes that have been read, by the place of their anchor. -/
  nodes : List (Nat × Node)

namespace Names

/-- The handles every text has. -/
def standardHandles : List (List Char × List Char) :=
  [("!".toList, "!".toList), ("!!".toList, "tag:yaml.org,2002:".toList)]

/-- Notes an anchor; gives its place among the anchors. -/
def addAnchor (names : Names) (name : List Char) : Nat × Names :=
  let number := names.anchors.length
  let others := names.anchors.filter (·.1 != name)
  (names.numbers.length,
    { names with anchors := (name, number) :: others, numbers := names.numbers ++ [number] })

/-- Notes the node of an anchor. -/
def addNode (names : Names) (place : Option Nat) (node : Node) : Names :=
  match place with
  | none => names
  | some place => { names with nodes := (place, node) :: names.nodes }

/-- The tag that a handle and the text behind it make. -/
def tag (names : Names) (handle suffix : List Char) : Except Fault (List Char) :=
  if handle.isEmpty then .ok suffix
  else
    match names.handles.lookup handle with
    | some start => .ok (start ++ suffix)
    | none => .error .badTag

end Names

/-- What reading a part of the tokens gives: a value, the tokens behind it
and the names met so far. -/
abbrev Reading (α : Type) := α × List Token × Names

/-! ## What may be left out -/

/-- Whether a sequence's entry is left out before a token. -/
def endsEntry : Token → Bool
  | .blockEntry | .blockEnd => true
  | _ => false

/-- Whether the entry of a sequence that is not indented is left out before a
token. -/
def endsLooseEntry : Token → Bool
  | .blockEntry | .key | .value | .blockEnd => true
  | _ => false

/-- Whether a mapping's key or value is left out before a token. -/
def endsPart : Token → Bool
  | .key | .value | .blockEnd => true
  | _ => false

/-- Whether a node within brackets is left out before a token. -/
def endsFlowPart (close : Token) (t : Token) : Bool := t == .flowEntry || t == close

/-! ## Nodes -/

/-- The anchor and the tag before a node. -/
structure Properties where
  anchor : Option (List Char)
  tag : Option (List Char × List Char)

/-- The properties at the start of some tokens, and what follows. -/
def readProperties : List Token → Properties × List Token
  | .anchor a :: .tag handle suffix :: rest => (⟨some a, some (handle, suffix)⟩, rest)
  | .tag handle suffix :: .anchor a :: rest => (⟨some a, some (handle, suffix)⟩, rest)
  | .anchor a :: rest => (⟨some a, none⟩, rest)
  | .tag handle suffix :: rest => (⟨none, some (handle, suffix)⟩, rest)
  | rest => (⟨none, none⟩, rest)

/-- Where a node stands: within a block, as a part of a block's mapping, or
within brackets. -/
inductive Site where
  | block
  | blockPart
  | flow
deriving DecidableEq

mutual

/-- The node at the start of some tokens. -/
def readNode (site : Site) (names : Names) (ts : List Token) : Nat → Except Fault (Reading Node)
  | 0 => .error .tooDeep
  | fuel + 1 =>
    match ts with
    | .alias name :: rest =>
      match names.anchors.lookup name with
      | some number => .ok (.alias number, rest, names)
      | none => .error .unknownAnchor
    | _ => do
      let (properties, ts) := readProperties ts
      let tag ← match properties.tag with
        | some (handle, suffix) => names.tag handle suffix
        | none => .ok []
      let (place, names) := match properties.anchor with
        | some name =>
          let (place, names) := names.addAnchor name
          (some place, names)
        | none => (none, names)
      let isBare := properties.anchor.isNone && properties.tag.isNone
      let (node, ts, names) ← readContent site tag isBare names ts fuel
      return (node, ts, names.addNode place node)

/-- The content of a node behind its properties.  It may be left out unless
there are none. -/
def readContent (site : Site) (tag : List Char) (isBare : Bool) (names : Names)
    (ts : List Token) : Nat → Except Fault (Reading Node)
  | 0 => .error .tooDeep
  | fuel + 1 =>
    match ts with
    | .scalar text style :: rest => .ok (.scalar text style tag, rest, names)
    | .flowSequence :: rest => do
      let (items, rest, names) ← readFlowItems true names rest fuel
      return (.sequence items, rest, names)
    | .flowMapping :: rest => do
      let (pairs, rest, names) ← readFlowPairs true names rest fuel
      return (.mapping pairs, rest, names)
    | t :: rest =>
      if t == .blockEntry && site == .blockPart then do
        let (items, rest, names) ← readLooseEntries names ts fuel
        return (.sequence items, rest, names)
      else if t == .blockSequence && site != .flow then do
        let (items, rest, names) ← readEntries names rest fuel
        return (.sequence items, rest, names)
      else if t == .blockMapping && site != .flow then do
        let (pairs, rest, names) ← readPairs names rest fuel
        return (.mapping pairs, rest, names)
      else if isBare then .error .unexpectedToken
      else .ok (.scalar [] .plain tag, ts, names)
    | [] => if isBare then .error .unexpectedToken else .ok (.scalar [] .plain tag, [], names)

/-- The node at the start of some tokens, which may be left out before
certain ones. -/
def readOptional (site : Site) (isLeftOut : Token → Bool) (names : Names) (ts : List Token) :
    Nat → Except Fault (Reading Node)
  | 0 => .error .tooDeep
  | fuel + 1 =>
    if ts.head?.any isLeftOut then .ok (.empty, ts, names)
    else readNode site names ts fuel

/-- The entries of a block's sequence up to its end. -/
def readEntries (names : Names) (ts : List Token) : Nat → Except Fault (Reading (List Node))
  | 0 => .error .tooDeep
  | fuel + 1 =>
    match ts with
    | .blockEntry :: rest => do
      let (node, rest, names) ← readOptional .block endsEntry names rest fuel
      let (nodes, rest, names) ← readEntries names rest fuel
      return (node :: nodes, rest, names)
    | .blockEnd :: rest => .ok ([], rest, names)
    | _ => .error .unexpectedToken

/-- The entries of a sequence that is not indented. -/
def readLooseEntries (names : Names) (ts : List Token) : Nat → Except Fault (Reading (List Node))
  | 0 => .error .tooDeep
  | fuel + 1 =>
    match ts with
    | .blockEntry :: rest => do
      let (node, rest, names) ← readOptional .block endsLooseEntry names rest fuel
      let (nodes, rest, names) ← readLooseEntries names rest fuel
      return (node :: nodes, rest, names)
    | _ => .ok ([], ts, names)

/-- The pairs of a block's mapping up to its end. -/
def readPairs (names : Names) (ts : List Token) :
    Nat → Except Fault (Reading (List (Node × Node)))
  | 0 => .error .tooDeep
  | fuel + 1 =>
    match ts with
    | .key :: rest => do
      let (k, rest, names) ← readOptional .blockPart endsPart names rest fuel
      let (v, rest, names) ← match rest with
        | .value :: rest => readOptional .blockPart endsPart names rest fuel
        | _ => .ok (.empty, rest, names)
      let (pairs, rest, names) ← readPairs names rest fuel
      return ((k, v) :: pairs, rest, names)
    | .blockEnd :: rest => .ok ([], rest, names)
    | _ => .error .unexpectedToken

/-- The items within square brackets up to the closing one. -/
def readFlowItems (isFirst : Bool) (names : Names) (ts : List Token) :
    Nat → Except Fault (Reading (List Node))
  | 0 => .error .tooDeep
  | fuel + 1 =>
    match isFirst, ts with
    | _, .flowSequenceEnd :: rest => .ok ([], rest, names)
    | false, .flowEntry :: .flowSequenceEnd :: rest => .ok ([], rest, names)
    | false, .flowEntry :: rest => readFlowItem names rest fuel
    | true, _ => readFlowItem names ts fuel
    | false, _ => .error .unexpectedToken

/-- An item within square brackets and those behind it.  A key there is a
mapping of one pair. -/
def readFlowItem (names : Names) (ts : List Token) : Nat → Except Fault (Reading (List Node))
  | 0 => .error .tooDeep
  | fuel + 1 => do
    let (node, rest, names) ← match ts with
      | .key :: rest => do
        let (pair, rest, names) ← readSinglePair names rest fuel
        pure (Node.mapping [pair], rest, names)
      | _ => readNode .flow names ts fuel
    let (nodes, rest, names) ← readFlowItems false names rest fuel
    return (node :: nodes, rest, names)

/-- The pair behind a key's sign within square brackets.  A key that is left
out takes the token behind it along. -/
def readSinglePair (names : Names) (ts : List Token) : Nat → Except Fault (Reading (Node × Node))
  | 0 => .error .tooDeep
  | fuel + 1 => do
    let (k, rest, names) ← match ts with
      | t :: rest =>
        if t == .value || endsFlowPart .flowSequenceEnd t then .ok (Node.empty, rest, names)
        else readNode .flow names ts fuel
      | [] => .error .unexpectedToken
    let (v, rest, names) ← match rest with
      | .value :: rest => readOptional .flow (endsFlowPart .flowSequenceEnd) names rest fuel
      | _ => .ok (.empty, rest, names)
    return ((k, v), rest, names)

/-- The pairs within braces up to the closing one. -/
def readFlowPairs (isFirst : Bool) (names : Names) (ts : List Token) :
    Nat → Except Fault (Reading (List (Node × Node)))
  | 0 => .error .tooDeep
  | fuel + 1 =>
    match isFirst, ts with
    | _, .flowMappingEnd :: rest => .ok ([], rest, names)
    | false, .flowEntry :: .flowMappingEnd :: rest => .ok ([], rest, names)
    | false, .flowEntry :: rest => readFlowPair names rest fuel
    | true, _ => readFlowPair names ts fuel
    | false, _ => .error .unexpectedToken

/-- A pair within braces and those behind it.  Without a key's sign there is
no value. -/
def readFlowPair (names : Names) (ts : List Token) :
    Nat → Except Fault (Reading (List (Node × Node)))
  | 0 => .error .tooDeep
  | fuel + 1 => do
    let (pair, rest, names) ← match ts with
      | .key :: rest => do
        let isLeftOut := fun t => t == .value || endsFlowPart .flowMappingEnd t
        let (k, rest, names) ← readOptional .flow isLeftOut names rest fuel
        let (v, rest, names) ← match rest with
          | .value :: rest => readOptional .flow (endsFlowPart .flowMappingEnd) names rest fuel
          | _ => .ok (.empty, rest, names)
        pure ((k, v), rest, names)
      | _ => do
        let (k, rest, names) ← readNode .flow names ts fuel
        pure ((k, .empty), rest, names)
    let (pairs, rest, names) ← readFlowPairs false names rest fuel
    return (pair :: pairs, rest, names)

end

/-! ## Documents -/

/-- A document: its node, and the nodes aliases may name. -/
structure Document where
  root : Node
  names : Names

namespace Document

/-- The node an alias means. -/
def target? (d : Document) (number : Nat) : Option Node :=
  let later := d.names.numbers.reverse.takeWhile (· != number)
  d.names.nodes.lookup (d.names.numbers.length - 1 - later.length)

/-- The node itself, or the one it is an alias of. -/
def resolve (d : Document) : Node → Node
  | .alias number => (d.target? number).getD .empty
  | node => node

end Document

/-- The handles that directives define, and the tokens behind them. -/
def readDirectives (hasVersion : Bool) (handles : List (List Char × List Char)) :
    List Token → Except Fault (List (List Char × List Char) × List Token)
  | .version :: rest =>
    if hasVersion then .error .badDirective else readDirectives true handles rest
  | .tagPrefix handle text :: rest =>
    if (handles.lookup handle).isSome then .error .badDirective
    else readDirectives hasVersion ((handle, text) :: handles) rest
  | rest => .ok (handles, rest)

/-- Whether a token stands outside of any document. -/
def isFrame : Token → Bool
  | .version | .tagPrefix .. | .documentStart | .documentEnd => true
  | _ => false

/-- Reads a document's node and makes sure that nothing but ends of
documents follows. -/
def readDocument (handles : List (List Char × List Char)) (ts : List Token) (isLeftOut : Bool) :
    Except Fault Document := do
  let names : Names := ⟨handles ++ Names.standardHandles, [], [], []⟩
  let (root, rest, names) ←
    if isLeftOut then pure (.empty, ts, names) else readNode .block names ts (4 * ts.length + 4)
  if rest.all (· == .documentEnd) then return ⟨root, names⟩
  .error .unexpectedToken

/-- The one document of a text, if it holds any. -/
def document? (text : List Char) : Except Fault (Option Document) := do
  let ts ← tokens text
  match ts with
  | [] => return none
  | t :: _ =>
    if isFrame t && t != .documentEnd then
      match ← readDirectives false [] ts with
      | (handles, .documentStart :: rest) =>
        return some (← readDocument handles rest (rest.head?.all isFrame))
      | _ => .error .unexpectedToken
    else return some (← readDocument [] ts false)

end SourceMetrics.Yaml
