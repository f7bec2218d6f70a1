/-
# `Amount` — the numbers a metric can take

Measures are added up, and the larger of two is kept; nothing else is
asked of their numbers.  A scan that runs counts in floating point.  A
statement about totals holds for every `Amount` whose addition and maximum
obey the laws it names.
-/
namespace SourceMetrics

/-- Numbers that can be added up and compared for the larger one. -/
class Amount (α : Type) extends Zero α, One α, Add α where
  /-- The larger of the two; the second where neither is larger. -/
  larger : α → α → α
  /-- A count as an amount. -/
  ofCount : Nat → α

/-- Floating point: a value that is no number never counts as the larger
one, unless both are none. -/
instance : Amount Float where
  zero := 0.0
  one := 1.0
  larger a b := if a.isNaN || a ≤ b then b else a
  ofCount := Float.ofNat

/-- Exact counts. -/
instance : Amount Nat where
  zero := 0
  one := 1
  add := Nat.add
  larger a b := if a ≤ b then b else a
  ofCount n := n

end SourceMetrics
