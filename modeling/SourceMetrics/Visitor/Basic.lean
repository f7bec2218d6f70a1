/-
# `Visitor` — a collector of metrics

A visitor declares the metrics it owns and the kinds of node it wants to
see, and answers each call with writes to the open unit.  It may carry a
state `σ` from call to call; `visitFile` comes before any other call of a
file.  Visitors of one scan share the type of their states, so that a list
of visitors is a plain list.

The built-in visitors share `FileMemory`, and start every file with an
empty one.
-/
import SourceMetrics.SyntaxTree.Node
import SourceMetrics.Visitor.Context

namespace SourceMetrics

/-- The answer to a call: the state to go on with, and the writes. -/
abbrev Answer (σ α : Type) := σ × List (Write α)

/-- A collector of metrics. -/
structure Visitor (σ α : Type) where
  name : String
  /-- The metrics the visitor writes; no two visitors share one. -/
  metrics : List Metric
  /-- The kinds of node the visitor is called for. -/
  nodeTypes : List String
  /-- Whether the visitor is called for every token. -/
  observesTokens : Bool
  /-- The state before the first file. -/
  initial : σ
  /-- The state of a fresh copy for another worker. -/
  fork : σ → σ
  visitFile : σ → Node → UnitView α → Answer σ α
  visitNode : σ → Node → UnitView α → Answer σ α
  visitToken : σ → Node → Token → UnitView α → Answer σ α
  leaveNode : σ → Node → UnitView α → Answer σ α
  leaveFile : σ → Node → UnitView α → Answer σ α

/-- What the built-in visitors keep in mind within one file. -/
structure FileMemory where
  /-- The lines that were counted as code. -/
  codeLines : LineSet
  /-- Whether a code token was seen. -/
  seenCode : Bool
deriving DecidableEq

namespace FileMemory

/-- Nothing seen yet. -/
def empty : FileMemory := ⟨.empty, false⟩

end FileMemory

namespace Visitor

variable {α : Type}

/-- A visitor that writes nothing and forgets everything between files. -/
def silent (name : String) (metrics : List Metric) : Visitor FileMemory α where
  name := name
  metrics := metrics
  nodeTypes := []
  observesTokens := false
  initial := .empty
  fork _ := .empty
  visitFile _ _ _ := (.empty, [])
  visitNode memory _ _ := (memory, [])
  visitToken memory _ _ _ := (memory, [])
  leaveNode memory _ _ := (memory, [])
  leaveFile memory _ _ := (memory, [])

end Visitor
end SourceMetrics
