/-
# `Span` — where a node stands in its text

Lines and columns count from one and the end column is exclusive.  A span
that ends at column one stops right behind a line break, so the line it
ends on holds no character of it: `lastLine` is the last line that does.
-/
namespace SourceMetrics

/-- A stretch of text, from a start to an exclusive end. -/
structure Span where
  startLine : Nat
  startCol : Nat
  endLine : Nat
  endCol : Nat
deriving DecidableEq, Repr, Inhabited

namespace Span

/-- A span within one line. -/
def onLine (line startCol endCol : Nat) : Span := ⟨line, startCol, line, endCol⟩

/-- The last line that holds a character of the span. -/
def lastLine (s : Span) : Nat :=
  if s.endCol ≤ 1 ∧ s.startLine < s.endLine then s.endLine - 1 else s.endLine

/-- How many lines hold a character of the span. -/
def lineCount (s : Span) : Nat := s.lastLine - s.startLine + 1

/-- The lines that hold a character of the span, in order. -/
def lines (s : Span) : List Nat :=
  List.range' s.startLine (s.lastLine + 1 - s.startLine)

/-- The start of the span, as `line:column`. -/
def render (s : Span) : String := s!"{s.startLine}:{s.startCol}"

theorem mem_lines {s : Span} {n : Nat} :
    n ∈ s.lines ↔ s.startLine ≤ n ∧ n ≤ s.lastLine := by
  simp only [lines, List.mem_range'_1]; omega

end Span
end SourceMetrics
