/-
# Sessions over many files

Files are scanned in order.  A file that cannot be read or parsed is
recorded and the session moves on; any other error ends it, and the report
made so far is lost while the files taken in stay in the index.  The
session stops before the next file once it was asked to.
-/
import SourceMetrics.Scan.Scanner

namespace SourceMetrics

/-- A file that could not be scanned. -/
structure FileFailure where
  file : String
  error : ScanError
deriving DecidableEq, Repr

/-- What a session over many files comes to. -/
structure ScanReport where
  /-- The files taken in, in the order of the paths. -/
  scanned : List Nat
  failures : List FileFailure
  /-- Whether the session stopped early. -/
  cancelled : Bool
deriving DecidableEq, Repr

namespace ScanReport

/-- Nothing done yet. -/
def empty : ScanReport := ⟨[], [], false⟩

/-- Whether every file was scanned. -/
def isClean (r : ScanReport) : Bool := r.failures.isEmpty && !r.cancelled

/-- The report with one more file taken in. -/
def addScanned (r : ScanReport) (id : Nat) : ScanReport := { r with scanned := r.scanned ++ [id] }

/-- The report with one more failure. -/
def addFailure (r : ScanReport) (f : FileFailure) : ScanReport :=
  { r with failures := r.failures ++ [f] }

end ScanReport

/-- The outcome of a session, with the paths that were reported as done. -/
structure Session (σ α : Type) where
  result : Except ScanError ScanReport
  scanner : Scanner σ α
  events : List (Event α)
  progress : List String

namespace Session

variable {σ α : Type}

/-- A session that goes on after some events and some paths done. -/
def after (events : List (Event α)) (progress : List String) (rest : Session σ α) :
    Session σ α :=
  { rest with events := events ++ rest.events, progress := progress ++ rest.progress }

end Session

namespace Scanner

variable {σ α : Type} [Amount α]

/-- What a session does with an error of one file: the report and the event
to go on with, or the error that ends it. -/
def recordFailure (report : ScanReport) (path : String) (err : ScanError) :
    Except ScanError (ScanReport × Event α) :=
  if err.isFileScoped then .ok (report.addFailure ⟨path, err⟩, .skippingFile path err)
  else .error err

/-- Whether the listener to the progress asks to stop, once it has seen a
number of files. -/
def asksToStop (stopAfter : Option Nat) (seen : Nat) : Bool :=
  match stopAfter with
  | some n => n ≤ seen
  | none => false

/-- Scans the remaining paths in order, `seen` files being done. -/
def scanFrom (read : Reader) (stopAfter : Option Nat) (sc : Scanner σ α) (seen : Nat)
    (report : ScanReport) : List String → Session σ α
  | [] => ⟨.ok report, sc, [], []⟩
  | path :: rest =>
    if sc.cancelled then ⟨.ok { report with cancelled := true }, sc, [.scanCancelled], []⟩
    else
      let o := sc.scanFile read path
      let sc := if asksToStop stopAfter (seen + 1) then o.scanner.cancel else o.scanner
      match o.result with
      | .ok id =>
        (scanFrom read stopAfter sc (seen + 1) (report.addScanned id) rest).after o.events [path]
      | .error err =>
        match recordFailure report path err with
        | .error err => ⟨.error err, sc, o.events, [path]⟩
        | .ok (report, event) =>
          (scanFrom read stopAfter sc (seen + 1) report rest).after (o.events ++ [event]) [path]

/-- Scans files in order.  The listener to the progress hears of each file
when it is done; with `stopAfter` it asks to stop after that many. -/
def scanFiles (sc : Scanner σ α) (read : Reader) (stopAfter : Option Nat)
    (paths : List String) : Session σ α :=
  scanFrom read stopAfter sc 0 .empty paths

end Scanner
end SourceMetrics
