/-
# `Scanner` — a session over many files

A scanner holds the engine, the states of its visitors, the index of all
files taken in so far and a flag that asks a session over many files to
stop.  Each operation answers with its result, the scanner to go on with
and the events it adds to the record.

A text that cannot be read or parsed, or whose key is taken, leaves the
index as it was.
-/
import SourceMetrics.Scan.Traversal
import SourceMetrics.Unit.Index

namespace SourceMetrics

/-- Reads the text of the file at a path. -/
abbrev Reader := String → Except IoFault String

/-- A session in progress. -/
structure Scanner (σ α : Type) where
  engine : Engine σ α
  memories : List σ
  index : UnitIndex α
  cancelled : Bool

/-- What an operation of a scanner comes to. -/
structure Outcome (σ α β : Type) where
  result : Except ScanError β
  scanner : Scanner σ α
  /-- The events of the operation, in order. -/
  events : List (Event α)

/-! ## One text -/

namespace Engine

variable {σ α : Type} [Amount α]

/-- What the scan of one text comes to. -/
structure Scan (σ α : Type) where
  result : Except ScanError (UnitTree α)
  memories : List σ
  events : List (Event α)

/-- Parses a text and passes over its tree. -/
def scan (e : Engine σ α) (memories : List σ) (key text : String) : Scan σ α :=
  match e.grammar.parse text with
  | .error err => ⟨.error (.parse key err), memories, []⟩
  | .ok root =>
    match e.traverse key root memories [.parsed key root.nodeCount] with
    | .error err => ⟨.error err, memories, [.parsed key root.nodeCount]⟩
    | .ok (tree, s) =>
      ⟨.ok tree, s.memories, (Event.scanned key tree.unitCount :: s.events).reverse⟩

/-- Reads the file at a path and scans its text under the path as key. -/
def scanPath (e : Engine σ α) (read : Reader) (memories : List σ) (path : String) : Scan σ α :=
  match read path with
  | .error fault => ⟨.error (.io path fault), memories, []⟩
  | .ok text => e.scan memories path text

end Engine

namespace Scanner

variable {σ α : Type}

/-- A scanner with an empty project, and what its making leaves in the
record. -/
def new (config : ScannerConfig σ α) (grammar : Grammar) :
    Except ScanError (Scanner σ α × List (Event α)) := do
  let engine ← Engine.build config grammar
  let scanner : Scanner σ α :=
    ⟨engine, engine.initialMemories, .new config.projectKey engine.registry, false⟩
  return (scanner, engine.readyEvents)

/-- The scanner with a request to stop. -/
def cancel (sc : Scanner σ α) : Scanner σ α := { sc with cancelled := true }

variable [Amount α]

/-- Takes the tree of a finished scan into the index. -/
def takeIn (sc : Scanner σ α) (scan : Engine.Scan σ α) : Outcome σ α Nat :=
  let sc := { sc with memories := scan.memories }
  match scan.result with
  | .error err => ⟨.error err, sc, scan.events⟩
  | .ok tree =>
    match sc.index.insert tree with
    | .error err => ⟨.error err, sc, scan.events⟩
    | .ok (id, index) => ⟨.ok id, { sc with index := index }, scan.events⟩

/-- Scans a text as a file of the given key. -/
def scanSource (sc : Scanner σ α) (key text : String) : Outcome σ α Nat :=
  sc.takeIn (sc.engine.scan sc.memories key text)

/-- Scans the file at a path. -/
def scanFile (sc : Scanner σ α) (read : Reader) (path : String) : Outcome σ α Nat :=
  sc.takeIn (sc.engine.scanPath read sc.memories path)

/-- Scans a single file and gives its tree.  It is an error if the session
has other files. -/
def scanSingleFile (sc : Scanner σ α) (read : Reader) (path : String) :
    Outcome σ α (UnitTree α) :=
  let o := sc.scanFile read path
  let result : Except ScanError (UnitTree α) :=
    match o.result with
    | .error err => .error err
    | .ok id =>
      let files := (o.scanner.index.query .file).length
      if files ≠ 1 then .error (.invariant (.notOneFile files))
      else
        match o.scanner.index.toTree id with
        | some tree => .ok tree
        | none => .error (.invariant (.fileNotIndexed id))
  ⟨result, o.scanner, o.events⟩

end Scanner
end SourceMetrics
