/-
# `Visitor.lines` — how many lines a file has

The root of a syntax tree spans the whole text, so its span gives the
physical lines of the file.
-/
import SourceMetrics.Visitor.Basic

namespace SourceMetrics.Visitor

/-- The lines from the first to the last of a span, taken as they stand. -/
def linesSpanned (s : Span) : Nat := s.endLine - s.startLine + 1

/-- Adds the lines the root spans to a metric of the file. -/
def lines {α : Type} [Amount α] (metric : Metric) : Visitor FileMemory α :=
  { silent "lines" [metric] with
    visitFile := fun _ root _ =>
      (.empty, [.add metric (Amount.ofCount (linesSpanned root.span))]) }

end SourceMetrics.Visitor
