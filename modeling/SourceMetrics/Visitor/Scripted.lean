/-
# `Visitor.scripted` — a visitor given by a table of actions

A script lists, for each hook, what to do when it is called.  It serves to
try out a configuration: it can write any metric, owned or not, and its
remarks show which calls it got and what it read.
-/
import SourceMetrics.Visitor.Basic

namespace SourceMetrics

/-- One step of a script. -/
inductive Action where
  | add (metric : Metric) (amount : Float)
  | increment (metric : Metric)
  | set (metric : Metric) (value : Float)
  /-- Keeps the largest number of children in a metric. -/
  | maxChildren (metric : Metric)
  /-- Marks the line the node starts on. -/
  | markNoSonar
  /-- Remarks the value the open unit holds of a metric. -/
  | remarkCurrent (metric : Metric)
  /-- Remarks the call. -/
  | remarkCall

/-- What a visitor does, hook by hook. -/
structure Script where
  name : String
  metrics : List Metric
  nodeTypes : List String
  observesTokens : Bool
  actions : Hook → List Action

/-- The call a script answers. -/
structure ScriptCall where
  hook : Hook
  node : Node
  text : Option String

namespace Script

/-- What the unit shows after a write, if the visitor owns the metric. -/
def viewAfter (script : Script) (view : UnitView Float) (w : Write Float) : UnitView Float :=
  match w with
  | .add m x =>
    if script.metrics.contains m then
      { view with current := fun k => if k = m then view.current m + x else view.current k }
    else view
  | .set m x =>
    if script.metrics.contains m then
      { view with current := fun k => if k = m then x else view.current k }
    else view
  | .markNoSonar _ | .remark _ => view

/-- The write one action comes to. -/
def write? (script : Script) (call : ScriptCall) (view : UnitView Float) :
    Action → Option (Write Float)
  | .add m x => some (.add m x)
  | .increment m => some (.increment m)
  | .set m x => some (.set m x)
  | .maxChildren m =>
    let n := Amount.ofCount call.node.children.length
    if view.current m < n then some (.set m n) else none
  | .markNoSonar => some (.markNoSonar call.node.startLine)
  | .remarkCurrent m => some (.remark (.value (view.current m)))
  | .remarkCall =>
    some (.remark (.call script.name call.hook call.node.kind call.node.startLine call.text
      view.unitKind view.unitKey view.file))

/-- The writes of a list of actions; each sees what those before it did. -/
def writes (script : Script) (call : ScriptCall) (view : UnitView Float) :
    List Action → List (Write Float)
  | [] => []
  | a :: rest =>
    match script.write? call view a with
    | some w => w :: script.writes call (script.viewAfter view w) rest
    | none => script.writes call view rest

/-- The answer to a call. -/
def answer (script : Script) (hook : Hook) (node : Node) (text : Option String)
    (view : UnitView Float) : List (Write Float) :=
  script.writes ⟨hook, node, text⟩ view (script.actions hook)

end Script

namespace Visitor

/-- The visitor that follows a script. -/
def scripted (script : Script) : Visitor FileMemory Float :=
  { (silent script.name script.metrics : Visitor FileMemory Float) with
    nodeTypes := script.nodeTypes
    observesTokens := script.observesTokens
    visitFile := fun _ n view => (.empty, script.answer .file n none view)
    visitNode := fun memory n view => (memory, script.answer .node n none view)
    visitToken := fun memory n t view => (memory, script.answer .token n (some t.text) view)
    leaveNode := fun memory n view => (memory, script.answer .leave n none view)
    leaveFile := fun memory n view => (memory, script.answer .leaveFile n none view) }

end Visitor
end SourceMetrics
