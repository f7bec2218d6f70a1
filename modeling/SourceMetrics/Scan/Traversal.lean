/-
# `Traversal` — one pass over the tree of a file

The pass keeps a stack of open units, the file at its bottom.  On entry of
a node, an extractor may open a unit for it; then the visitors that observe
tokens and those that subscribe to the kind of the node are called, with
the innermost unit open.  On exit the subscribers are called again, and a
unit opened for the node is closed: its totals are worked out and folded
into the unit around it.

    file ─┬─ class ─┬─ method          open:   file ▸ class ▸ method
          │         └─ method          closed: totals go to the left
          └─ function

Below one unit no two children share a key: a later one is told apart by
its column, and then by a number (`OpenUnit.uniqueKey`).
-/
import SourceMetrics.Scan.Engine
import SourceMetrics.SyntaxTree.Walk
import SourceMetrics.Unit.Tree

namespace SourceMetrics

/-! ## Open units -/

/-- A unit whose nodes are still being visited. -/
structure OpenUnit (α : Type) where
  kind : UnitKind
  key : String
  startLine : Nat
  own : Measures α
  /-- The totals of the finished children, folded together. -/
  gathered : Measures α
  /-- The finished children, the latest first. -/
  finished : List (UnitTree α)

namespace OpenUnit

variable {α : Type}

/-- A unit on which nothing was recorded yet. -/
def new (kind : UnitKind) (key : String) (startLine : Nat) : OpenUnit α :=
  ⟨kind, key, startLine, .empty, .empty, []⟩

/-- A key told apart by the column its unit starts at. -/
def withColumn (key : String) (column : Nat) : String := s!"{key}:{column}"

/-- A key told apart by its column and a number. -/
def numbered (key : String) (column n : Nat) : String := s!"{withColumn key column}#{n}"

/-- The key itself, or else the first of `key:column`, `key:column#2`,
`key:column#3` and so on that is not taken.  One number more than there are
keys taken is enough. -/
def freeKey (taken : List String) (key : String) (column : Nat) : String :=
  if !taken.contains key then key
  else if !taken.contains (withColumn key column) then withColumn key column
  else
    let free := (List.range' 2 (taken.length + 1)).find? fun n =>
      !taken.contains (numbered key column n)
    match free with
    | some n => numbered key column n
    | none => withColumn key column

/-- A key that no finished child has, the wanted one where it is free. -/
def uniqueKey (u : OpenUnit α) (key : String) (column : Nat) : String :=
  freeKey (u.finished.map (·.key)) key column

/-- The finished unit. -/
def finish [Amount α] (registry : MetricRegistry α) (u : OpenUnit α) : UnitTree α :=
  ⟨u.kind, u.key, u.startLine, u.own, registry.finalize u.own u.gathered, [], u.finished.reverse⟩

/-- The unit with one more finished child. -/
def addChild [Amount α] (registry : MetricRegistry α) (u : OpenUnit α) (t : UnitTree α) :
    OpenUnit α :=
  { u with
    gathered := registry.mergeChild u.gathered t.measures
    finished := t :: u.finished }

end OpenUnit

/-! ## The state of a pass -/

/-- How far the pass over a file has come. -/
structure ScanState (σ α : Type) where
  /-- The open units, the innermost first. -/
  units : List (OpenUnit α)
  /-- The states of the visitors, by their positions. -/
  memories : List σ
  noSonarLines : LineSet
  /-- The session's record, the latest event first. -/
  events : List (Event α)

namespace Engine

variable {σ α : Type} [Amount α]

/-- A question put to a visitor: one of its hooks, with the node at hand. -/
abbrev Question (σ α : Type) := Visitor σ α → σ → UnitView α → Answer σ α

/-- Puts a question to the visitor at a position and carries its writes out
on the innermost unit. -/
def call (e : Engine σ α) (file : String) (ask : Question σ α) (s : ScanState σ α)
    (position : Nat) : Except ScanError (ScanState σ α) :=
  match s.units with
  | [] => .error (.invariant .noOpenUnit)
  | u :: outer =>
    match e.visitors[position]?, s.memories[position]? with
    | some v, some memory =>
      let context : VisitorContext α :=
        ⟨u.own, e.plan.ownedBy position, u.kind, u.key, file, some s.noSonarLines, s.events⟩
      let (memory, writes) := ask v memory context.view
      let after := context.applyAll writes
      .ok
        { units := { u with own := after.own } :: outer
          memories := s.memories.set position memory
          noSonarLines := after.noSonarLines.getD .empty
          events := after.events }
    | _, _ => .ok s

/-- Puts a question to several visitors in turn. -/
def callEach (e : Engine σ α) (file : String) (ask : Question σ α) :
    List Nat → ScanState σ α → Except ScanError (ScanState σ α)
  | [], s => .ok s
  | position :: rest, s =>
    match e.call file ask s position with
    | .error err => .error err
    | .ok s => e.callEach file ask rest s

/-! ## Entry and exit -/

/-- The unit an extractor wants opened for a node. -/
def claim (e : Engine σ α) (above : List Node) (n : Node) (s : ScanState σ α) :
    Except ScanError (Option UnitSpec) :=
  if e.extractors.isEmpty then .ok none
  else
    match s.units with
    | [] => .error (.invariant .noOpenUnit)
    | u :: _ => .ok (UnitExtractor.firstClaim e.extractors n ⟨above, u.kind, u.key⟩)

/-- Opens a unit that starts at a column. -/
def openUnit (spec : UnitSpec) (column : Nat) (s : ScanState σ α) :
    Except ScanError (ScanState σ α) :=
  match s.units with
  | [] => .error (.invariant .noOpenUnit)
  | parent :: _ =>
    let key := parent.uniqueKey spec.key column
    .ok
      { s with
        units := .new spec.kind key spec.startLine :: s.units
        events := .openingUnit spec.kind key parent.key :: s.events }

/-- Closes the innermost unit. -/
def closeUnit (e : Engine σ α) (file : String) (s : ScanState σ α) :
    Except ScanError (ScanState σ α) :=
  match s.units with
  | [] | [_] => .error (.invariant (.fileClosedEarly file))
  | u :: parent :: outer =>
    .ok { s with units := parent.addChild e.registry (u.finish e.registry) :: outer }

/-- Calls the visitors a node is routed to on entry. -/
def visit (e : Engine σ α) (file : String) (n : Node) (s : ScanState σ α) :
    Except ScanError (ScanState σ α) :=
  match s.units with
  | [] => .error (.invariant .noOpenUnit)
  | _ :: _ => do
    let s ← match n.token with
      | some t =>
        e.callEach file (fun v memory view => v.visitToken memory n t view) e.plan.tokenObservers s
      | none => .ok s
    e.callEach file (fun v memory view => v.visitNode memory n view) (e.plan.subscribers n.kind) s

/-- Enters a node: opens the unit it starts, if any, and calls its visitors. -/
def enter (e : Engine σ α) (file : String) (above : List Node) (n : Node) (s : ScanState σ α) :
    Except ScanError (ScanState σ α × Bool) := do
  match ← e.claim above n s with
  | some spec =>
    let s ← openUnit spec n.span.startCol s
    let s ← e.visit file n s
    return (s, true)
  | none =>
    let s ← e.visit file n s
    return (s, false)

/-- Leaves a node: calls its subscribers and closes the unit it opened. -/
def leave (e : Engine σ α) (file : String) (n : Node) (opened : Bool) (s : ScanState σ α) :
    Except ScanError (ScanState σ α) := do
  let s ← e.callEach file (fun v memory view => v.leaveNode memory n view)
    (e.plan.subscribers n.kind) s
  if opened then e.closeUnit file s else return s

/-- The pass over the tree of a file. -/
def pass (e : Engine σ α) (file : String) : Pass ScanError (ScanState σ α) where
  enter := e.enter file
  leave := e.leave file

/-! ## A whole file -/

/-- The unit of a file before anything was visited. -/
def fileUnit (e : Engine σ α) (file : String) (root : Node) : OpenUnit α :=
  let u : OpenUnit α := .new .file file root.startLine
  match e.filesMetric with
  | some m => { u with own := u.own.set m 1 }
  | none => u

/-- The positions of all visitors, in order. -/
def positions (e : Engine σ α) : List Nat := List.range e.visitors.length

/-- The state in which the pass over a file begins. -/
def start (e : Engine σ α) (file : String) (root : Node) (memories : List σ)
    (events : List (Event α)) : ScanState σ α :=
  ⟨[e.fileUnit file root], memories, .empty, events⟩

/-- The tree of the file, once only its unit is left open. -/
def finishFile (e : Engine σ α) (file : String) (s : ScanState σ α) :
    Except ScanError (UnitTree α) :=
  match s.units with
  | [] => .error (.invariant .noOpenUnit)
  | u :: outer =>
    if !outer.isEmpty || u.kind ≠ .file then .error (.invariant (.unbalanced file))
    else .ok { u.finish e.registry with noSonarLines := s.noSonarLines.toList }

/-- Passes over the tree of a file in the way given and finishes its unit. -/
def traverseBy (e : Engine σ α)
    (walk : Node → ScanState σ α → Except ScanError (ScanState σ α))
    (file : String) (root : Node) (memories : List σ) (events : List (Event α)) :
    Except ScanError (UnitTree α × ScanState σ α) := do
  let s := e.start file root memories events
  let s ← e.callEach file (fun v memory view => v.visitFile memory root view) e.positions s
  let s ← walk root s
  let s ← e.callEach file (fun v memory view => v.leaveFile memory root view) e.positions s
  let tree ← e.finishFile file s
  return (tree, s)

/-- Passes over the tree of a file with a stack. -/
def traverse (e : Engine σ α) (file : String) (root : Node) (memories : List σ)
    (events : List (Event α)) : Except ScanError (UnitTree α × ScanState σ α) :=
  e.traverseBy (fun n s => n.walkStack (e.pass file) s) file root memories events

/-- Passes over the tree of a file by recursion. -/
def traverseRec (e : Engine σ α) (file : String) (root : Node) (memories : List σ)
    (events : List (Event α)) : Except ScanError (UnitTree α × ScanState σ α) :=
  e.traverseBy (fun n s => n.walk (e.pass file) [] s) file root memories events

end Engine
end SourceMetrics
