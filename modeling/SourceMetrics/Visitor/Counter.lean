/-
# `Visitor.counter` — how many nodes there are of some kinds

Functions, statements and complexity are all counters; only the list of
kinds differs.  The list is configuration and never inferred.
-/
import SourceMetrics.Visitor.Basic

namespace SourceMetrics.Visitor

/-- Adds one to a metric for each node of the listed kinds. -/
def counter {α : Type} [Amount α] (metric : Metric) (nodeTypes : List String) :
    Visitor FileMemory α :=
  { silent metric [metric] with
    nodeTypes := nodeTypes
    visitNode := fun memory _ _ => (memory, [.increment metric]) }

end SourceMetrics.Visitor
