/-
# `Event` — the record of a session

A session leaves a record of what it did, in order.  Each event has a level,
a message and named details; whoever reads the record takes the events at
or above the level of interest.  A visitor may leave remarks of its own,
which are not part of the messages.
-/
import SourceMetrics.Metric.Measures
import SourceMetrics.Scan.Error

namespace SourceMetrics

/-- How much an event matters, the least first. -/
inductive Level where
  | trace
  | debug
  | warn
deriving DecidableEq, Repr

namespace Level

def name : Level → String
  | trace => "TRACE"
  | debug => "DEBUG"
  | warn => "WARN"

/-- The position in the order of weight. -/
def weight : Level → Nat
  | trace => 0
  | debug => 1
  | warn => 2

end Level

/-- The calls a visitor gets. -/
inductive Hook where
  | file
  | node
  | token
  | leave
  | leaveFile
deriving DecidableEq, Repr

namespace Hook

def name : Hook → String
  | file => "file"
  | node => "node"
  | token => "token"
  | leave => "leave"
  | leaveFile => "leave_file"

end Hook

/-- What a visitor may remark about a call. -/
inductive Remark (α : Type) where
  /-- The value the open unit holds of a metric. -/
  | value (amount : α)
  /-- The call itself: who was called, how, for which node and where. -/
  | call (visitor : String) (hook : Hook) (nodeKind : String) (line : Nat)
      (text : Option String) (unitKind : UnitKind) (unitKey file : String)

/-- One entry of a session's record. -/
inductive Event (α : Type) where
  | unknownNodeType (owner nodeType language : String)
  | scannerReady (language : String) (visitors extractors metrics : Nat)
  | parsed (file : String) (nodes : Nat)
  | openingUnit (kind : UnitKind) (key parent : String)
  | ignoredWrite (metric : Metric) (file : String)
  | scanned (file : String) (units : Nat)
  | skippingFile (file : String) (error : ScanError)
  | scanCancelled
  | remark (remark : Remark α)

/-- How an event reads. -/
structure EventText where
  level : Level
  message : String
  details : List (String × String)

namespace Event

variable {α : Type}

/-- How an event reads; a remark is not part of the messages. -/
def text? : Event α → Option EventText
  | unknownNodeType owner nodeType language => some
    ⟨.warn, "subscribed node type is unknown to the grammar",
      [("owner", owner), ("node_type", nodeType), ("language", language)]⟩
  | scannerReady language visitors extractors metrics => some
    ⟨.debug, "scanner ready",
      [("language", language), ("visitors", toString visitors),
        ("extractors", toString extractors), ("metrics", toString metrics)]⟩
  | parsed file nodes => some
    ⟨.debug, "parsed", [("file", file), ("nodes", toString nodes)]⟩
  | openingUnit kind key parent => some
    ⟨.trace, "opening unit", [("kind", kind.name), ("key", key), ("parent", parent)]⟩
  | ignoredWrite metric file => some
    ⟨.warn, "ignoring write to a metric the visitor does not own",
      [("metric", metric), ("file", file)]⟩
  | scanned file units => some
    ⟨.debug, "scanned", [("file", file), ("units", toString units)]⟩
  | skippingFile file error => some
    ⟨.warn, "skipping file", [("file", file), ("error", error.message)]⟩
  | scanCancelled => some ⟨.debug, "scan cancelled", []⟩
  | remark _ => none

/-- The remark an event holds. -/
def remark? : Event α → Option (Remark α)
  | remark r => some r
  | _ => none

/-- The texts of the events at or above a level, in order. -/
def textsFrom (lowest : Level) (events : List (Event α)) : List EventText :=
  (events.filterMap text?).filter (fun t => lowest.weight ≤ t.level.weight)

end Event
end SourceMetrics
