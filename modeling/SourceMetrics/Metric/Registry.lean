/-
# `MetricRegistry` — an accepted list of metric definitions

A registry is accepted when it is not empty, names no metric twice and lets
a computed metric read only metrics defined before it.  It folds the totals
of a finished child into what its parent has gathered (`mergeChild`) and
turns own values and gathered totals into the totals of a unit
(`finalize`).
-/
import SourceMetrics.Metric.Definition
import SourceMetrics.Scan.Error

namespace SourceMetrics

/-- The metric definitions of a session. -/
structure MetricRegistry (α : Type) where
  definitions : List (MetricDefinition α)

namespace MetricRegistry

variable {α : Type}

/-- Checks the definitions one by one, given the metrics defined before. -/
def check (seen : List Metric) : List (MetricDefinition α) → Except ScanError Unit
  | [] => .ok ()
  | d :: rest =>
    match d.inputs.find? (fun m => !seen.contains m) with
    | some input => .error (.configuration (.readsUndefined d.metric input))
    | none =>
      if seen.contains d.metric then .error (.configuration (.metricDefinedTwice d.metric))
      else check (d.metric :: seen) rest

/-- Accepts a list of definitions, or names its first fault. -/
def ofDefinitions (definitions : List (MetricDefinition α)) :
    Except ScanError (MetricRegistry α) :=
  match definitions with
  | [] => .error (.configuration .noMetrics)
  | _ :: _ => (check [] definitions).map fun _ => ⟨definitions⟩

/-- The definition of a metric. -/
def get? (r : MetricRegistry α) (m : Metric) : Option (MetricDefinition α) :=
  r.definitions.find? (fun d => d.metric == m)

variable [Amount α]

/-- Folds one metric of a finished child into what its parent has gathered. -/
def mergeOne (child : Measures α) (gathered : Measures α) (d : MetricDefinition α) :
    Measures α :=
  match child.value? d.metric with
  | none => gathered
  | some x =>
    match d.aggregation with
    | .sum => gathered.add d.metric x
    | .max =>
      gathered.set d.metric
        (match gathered.value? d.metric with
          | some y => Amount.larger y x
          | none => x)
    | .computed .. => gathered

/-- Folds the totals of a finished child into what its parent has gathered. -/
def mergeChild (r : MetricRegistry α) (gathered child : Measures α) : Measures α :=
  r.definitions.foldl (mergeOne child) gathered

/-- The total of one metric, given the totals of the metrics before it. -/
def totalOf (own gathered totals : Measures α) (d : MetricDefinition α) : Option α :=
  match d.aggregation with
  | .sum =>
    match own.value? d.metric, gathered.value? d.metric with
    | none, none => none
    | x, y => some (x.getD 0 + y.getD 0)
  | .max =>
    match own.value? d.metric, gathered.value? d.metric with
    | some x, some y => some (Amount.larger x y)
    | some x, none => some x
    | none, y => y
  | .computed _ formula => formula totals

/-- Records the total of one metric, if it has one. -/
def finalizeOne (own gathered totals : Measures α) (d : MetricDefinition α) : Measures α :=
  match totalOf own gathered totals d with
  | some x => totals.set d.metric x
  | none => totals

/-- The totals of a unit, from its own values and what it gathered from its
children. -/
def finalize (r : MetricRegistry α) (own gathered : Measures α) : Measures α :=
  r.definitions.foldl (finalizeOne own gathered) Measures.empty

end MetricRegistry
end SourceMetrics
