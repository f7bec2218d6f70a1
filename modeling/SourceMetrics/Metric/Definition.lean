/-
# `MetricDefinition` — how a metric combines

A summed metric of a unit is its own value plus those of its children, a
maximum is the largest of them, and a computed metric is worked out anew on
every unit from the metrics defined before it.
-/
import SourceMetrics.Metric.Measures

namespace SourceMetrics

/-- A metric worked out from others; `none` leaves it without a value. -/
abbrev Formula (α : Type) := Measures α → Option α

/-- How the value of a unit comes from its own and its children's. -/
inductive Aggregation (α : Type) where
  | sum
  | max
  | computed (inputs : List Metric) (formula : Formula α)

/-- A metric and how it combines. -/
structure MetricDefinition (α : Type) where
  metric : Metric
  aggregation : Aggregation α

namespace MetricDefinition

variable {α : Type}

def isComputed (d : MetricDefinition α) : Bool :=
  match d.aggregation with
  | .computed .. => true
  | _ => false

/-- The metrics a computed metric reads. -/
def inputs (d : MetricDefinition α) : List Metric :=
  match d.aggregation with
  | .computed inputs _ => inputs
  | _ => []

/-- The metrics every scan knows, all of them summed. -/
def standard : List (MetricDefinition α) :=
  [Metric.files, Metric.lines, Metric.linesOfCode, Metric.commentLines,
    Metric.commentBlankLines, Metric.functions, Metric.statements, Metric.complexity].map
    (⟨·, .sum⟩)

end MetricDefinition

/-! ## Formulas -/

namespace Formula

/-- Complexity per function, for a unit that has functions. -/
def complexityPerFunction : Formula Float := fun ms =>
  let functions := ms.get Metric.functions
  if functions > 0 then some (ms.get Metric.complexity / functions) else none

/-- The comment lines in a hundred lines of comment or code, for a unit that
has such lines. -/
def commentDensity : Formula Float := fun ms =>
  let comments := ms.get Metric.commentLines
  let all := comments + ms.get Metric.linesOfCode
  if all > 0 then some (100 * comments / all) else none

/-- The sum of all values so far, in the order of their names. -/
def total : Formula Float := fun ms =>
  some (ms.entries.foldl (fun s e => s + e.2) 0)

/-- How many metrics have a value so far, if any. -/
def recorded : Formula Float := fun ms =>
  if ms.isEmpty then none else some (Amount.ofCount ms.entries.length)

/-- Never a value. -/
def never : Formula Float := fun _ => none

end Formula
end SourceMetrics
