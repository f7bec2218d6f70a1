/-
# `VisitorContext` — what a visitor sees and may ask for

For one hook call a visitor sees the open unit, the file and the values the
unit holds so far (`UnitView`).  It answers with writes, which are applied
in order.  A write to a metric the visitor does not own is ignored, and the
session's record says so; nothing else of the unit can be touched.
-/
import SourceMetrics.Metric.Measures
import SourceMetrics.Scan.Event
import SourceMetrics.Visitor.LineSet

namespace SourceMetrics

/-- One wish of a visitor. -/
inductive Write (α : Type) where
  /-- Adds to a metric of the open unit. -/
  | add (metric : Metric) (amount : α)
  /-- Overwrites a metric of the open unit. -/
  | set (metric : Metric) (value : α)
  /-- Marks a line of the file as one where findings are to be ignored. -/
  | markNoSonar (line : Nat)
  /-- Leaves a remark in the session's record. -/
  | remark (remark : Remark α)

namespace Write

variable {α : Type}

/-- Adds one. -/
def increment [Amount α] (metric : Metric) : Write α := .add metric 1

/-- The metric a write changes. -/
def metric? : Write α → Option Metric
  | add metric _ | set metric _ => some metric
  | markNoSonar _ | remark _ => none

end Write

/-- The open unit as a visitor sees it. -/
structure UnitView (α : Type) where
  /-- The value the unit holds of a metric so far. -/
  current : Metric → α
  unitKind : UnitKind
  unitKey : String
  file : String

/-- The open unit as the writes of one visitor reach it.  `noSonarLines` is
`none` where nobody collects them; `events` is the session's record, the
latest first. -/
structure VisitorContext (α : Type) where
  own : Measures α
  owned : List Metric
  unitKind : UnitKind
  unitKey : String
  file : String
  noSonarLines : Option LineSet
  events : List (Event α)

namespace VisitorContext

variable {α : Type}

/-- The value the open unit holds of a metric so far. -/
def current [Amount α] (c : VisitorContext α) (m : Metric) : α := c.own.get m

/-- What the visitor sees. -/
def view [Amount α] (c : VisitorContext α) : UnitView α :=
  ⟨c.current, c.unitKind, c.unitKey, c.file⟩

/-- Whether the visitor may write a metric. -/
def owns (c : VisitorContext α) (m : Metric) : Bool := c.owned.contains m

/-- The context after a write to a metric the visitor does not own. -/
def ignore (c : VisitorContext α) (m : Metric) : VisitorContext α :=
  { c with events := .ignoredWrite m c.file :: c.events }

/-- The context after one write. -/
def apply [Amount α] (c : VisitorContext α) : Write α → VisitorContext α
  | .add m x => if c.owns m then { c with own := c.own.add m x } else c.ignore m
  | .set m x => if c.owns m then { c with own := c.own.set m x } else c.ignore m
  | .markNoSonar line => { c with noSonarLines := c.noSonarLines.map (·.insert line) }
  | .remark r => { c with events := .remark r :: c.events }

/-- The context after several writes. -/
def applyAll [Amount α] (c : VisitorContext α) (ws : List (Write α)) : VisitorContext α :=
  ws.foldl apply c

end VisitorContext
end SourceMetrics
