/-
# `Engine` — what does not change during a session

A scanner is made of a configuration and a grammar.  Everything a scan
needs besides the text is worked out beforehand: the accepted metrics, the
plan that routes nodes to visitors and the extractors in their order.
-/
import SourceMetrics.SyntaxTree.Grammar
import SourceMetrics.Unit.Extraction
import SourceMetrics.Visitor.Plan

namespace SourceMetrics

/-- What a scanner is to be made of. -/
structure ScannerConfig (σ α : Type) where
  projectKey : String
  metrics : List (MetricDefinition α)
  /-- The metric that is one on every file, if any. -/
  filesMetric : Option Metric
  visitors : List (Visitor σ α)
  /-- The first extractor that claims a node wins. -/
  extractors : List UnitExtractor

/-- The fixed part of a scanner. -/
structure Engine (σ α : Type) where
  grammar : Grammar
  registry : MetricRegistry α
  plan : DispatchPlan
  visitors : List (Visitor σ α)
  extractors : List UnitExtractor
  filesMetric : Option Metric

namespace Engine

variable {σ α : Type}

/-- Checks the metric that counts files: it has to be defined and not
computed, and no visitor may write it. -/
def checkFilesMetric (registry : MetricRegistry α) (visitors : List (Visitor σ α)) (m : Metric) :
    Except ScanError Unit :=
  match registry.get? m with
  | none => .error (.configuration (.filesMetricUndefined m))
  | some d =>
    if d.isComputed then .error (.configuration (.filesMetricComputed m))
    else
      match visitors.find? (fun v => v.metrics.contains m) with
      | some v => .error (.configuration (.filesMetricWritten m v.name))
      | none => .ok ()

/-- The engine for a configuration, or the first fault of it. -/
def build (config : ScannerConfig σ α) (grammar : Grammar) :
    Except ScanError (Engine σ α) := do
  let registry ← MetricRegistry.ofDefinitions config.metrics
  let plan ← DispatchPlan.build registry config.visitors
  match config.filesMetric with
  | some m => checkFilesMetric registry config.visitors m
  | none => .ok ()
  return ⟨grammar, registry, plan, config.visitors, config.extractors, config.filesMetric⟩

/-- Who subscribes to which kinds of node: visitors first, then extractors. -/
def subscriptions (e : Engine σ α) : List (String × List String) :=
  e.visitors.map (fun v => (v.name, v.nodeTypes)) ++
    e.extractors.map (fun x => (x.name, x.nodeTypes))

/-- The subscriptions to kinds of node the grammar does not know. -/
def unknownTypes (e : Engine σ α) : List (Event α) :=
  match e.grammar.nodeTypes with
  | none => []
  | some known =>
    e.subscriptions.flatMap fun (owner, kinds) =>
      (kinds.filter (!known.contains ·)).map (.unknownNodeType owner · e.grammar.language)

/-- What the making of the engine leaves in the record. -/
def readyEvents (e : Engine σ α) : List (Event α) :=
  e.unknownTypes ++
    [.scannerReady e.grammar.language e.visitors.length e.extractors.length
      e.registry.definitions.length]

/-- The states of the visitors before the first file. -/
def initialMemories (e : Engine σ α) : List σ := e.visitors.map (·.initial)

/-- The states of a fresh copy of each visitor. -/
def forkMemories (e : Engine σ α) (memories : List σ) : List σ :=
  List.zipWith (fun v memory => v.fork memory) e.visitors memories

end Engine
end SourceMetrics
