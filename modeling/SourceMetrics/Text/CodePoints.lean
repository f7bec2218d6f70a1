/-
# `CodePoints` — sets of characters as ranges

A property of characters that only a table can tell is a list of closed
ranges of code points, in increasing order.
-/
namespace SourceMetrics.Text

/-- A set of code points: closed ranges, in increasing order. -/
abbrev CodePoints := List (Nat × Nat)

/-- Whether a code point lies in one of the ranges. -/
def CodePoints.has (ranges : CodePoints) (code : Nat) : Bool :=
  ranges.any (fun r => r.1 ≤ code && code ≤ r.2)

end SourceMetrics.Text
