/-
# `Visitor.linesOfCode` — how many lines hold code

A line counts once, on the unit that is open at the first code token on it.
Blank lines and lines of comment alone never count, nor does a token
without text.
-/
import SourceMetrics.Visitor.Basic

namespace SourceMetrics.Visitor

/-- The lines of code a token covers. -/
def codeLines (n : Node) (t : Token) : List Nat :=
  if t.isComment || t.text.isEmpty then [] else n.span.lines

/-- Adds lines to those seen; gives all that are seen and how many are new. -/
def seeLines (seen : LineSet) (lines : List Nat) : LineSet × Nat :=
  lines.foldl
    (fun (seen, fresh) line =>
      if seen.contains line then (seen, fresh) else (seen.insert line, fresh + 1))
    (seen, 0)

/-- Adds one to a metric for each line on which a first code token stands. -/
def linesOfCode {α : Type} [Amount α] (metric : Metric) : Visitor FileMemory α :=
  { silent "lines_of_code" [metric] with
    observesTokens := true
    visitToken := fun memory n t _ =>
      let (seen, fresh) := seeLines memory.codeLines (codeLines n t)
      ({ memory with codeLines := seen }, List.replicate fresh (.increment metric)) }

end SourceMetrics.Visitor
