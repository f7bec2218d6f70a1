/-
# `DispatchPlan` — who is called for which node

The plan is made once for a list of visitors: for every kind of node the
positions of the visitors that want to see it, in order, and the same for
tokens.  It is refused when a visitor writes a metric that is not defined,
is computed or belongs to another visitor.
-/
import SourceMetrics.Metric.Registry
import SourceMetrics.Visitor.Basic

namespace SourceMetrics

/-- Routes nodes and tokens to visitors, by their positions. -/
structure DispatchPlan where
  byType : List (String × List Nat)
  tokenObservers : List Nat
  owned : List (List Metric)
deriving DecidableEq, Repr

namespace DispatchPlan

/-- The plan for no visitors. -/
def empty : DispatchPlan := ⟨[], [], []⟩

/-- Adds a position to those of a kind of node. -/
def subscribe (position : Nat) (kind : String) :
    List (String × List Nat) → List (String × List Nat)
  | [] => [(kind, [position])]
  | (k, positions) :: rest =>
    if k = kind then (k, positions ++ [position]) :: rest
    else (k, positions) :: subscribe position kind rest

/-- The positions entered for a kind of node. -/
def positionsOf (kind : String) : List (String × List Nat) → List Nat
  | [] => []
  | (k, positions) :: rest => if k = kind then positions else positionsOf kind rest

/-- The visitors called for a kind of node, in order. -/
def subscribers (p : DispatchPlan) (kind : String) : List Nat := positionsOf kind p.byType

/-- The metrics of the visitor at a position. -/
def ownedBy (p : DispatchPlan) (position : Nat) : List Metric := p.owned[position]?.getD []

section
variable {σ α : Type}

/-- Enters the metrics of one visitor as its own, given the owners so far. -/
def claimMetrics (registry : MetricRegistry α) (visitor : String)
    (owners : List (Metric × String)) :
    List Metric → Except ScanError (List (Metric × String))
  | [] => .ok owners
  | m :: rest =>
    match registry.get? m with
    | none => .error (.configuration (.writesUndefined visitor m))
    | some d =>
      if d.isComputed then .error (.configuration (.writesComputed visitor m))
      else
        match owners.lookup m with
        | some first => .error (.configuration (.metricWrittenTwice m first visitor))
        | none => claimMetrics registry visitor ((m, visitor) :: owners) rest

/-- The plan with one more visitor, at the given position. -/
def enter (p : DispatchPlan) (position : Nat) (v : Visitor σ α) : DispatchPlan where
  byType := v.nodeTypes.eraseDups.foldl (fun table kind => subscribe position kind table) p.byType
  tokenObservers := if v.observesTokens then p.tokenObservers ++ [position] else p.tokenObservers
  owned := p.owned ++ [v.metrics]

/-- Adds visitors one by one, the first at the given position. -/
def enterAll (registry : MetricRegistry α) (owners : List (Metric × String))
    (p : DispatchPlan) (position : Nat) :
    List (Visitor σ α) → Except ScanError DispatchPlan
  | [] => .ok p
  | v :: rest =>
    match claimMetrics registry v.name owners v.metrics with
    | .error e => .error e
    | .ok owners => enterAll registry owners (p.enter position v) (position + 1) rest

/-- The plan for a list of visitors, or its first fault. -/
def build (registry : MetricRegistry α) (visitors : List (Visitor σ α)) :
    Except ScanError DispatchPlan :=
  match visitors with
  | [] => .error (.configuration .noVisitors)
  | _ :: _ => enterAll registry [] empty 0 visitors

end
end DispatchPlan
end SourceMetrics
