/-
# The report for readers

A block for every file: its key, a row with its main metrics and a row for
every unit below it, deeper units further to the right.  Then the files
that failed, and a line that sums the session up.
-/
import SourceMetrics.Report.Paint
import SourceMetrics.Report.Structured

namespace SourceMetrics.Report

/-! ## Rows -/

/-- The metrics shown for a file, in order, with their labels. -/
def fileColumns : List (Metric × String) :=
  [(Metric.lines, "lines"), (Metric.linesOfCode, "loc"), (Metric.commentLines, "comments"),
    (Metric.functions, "functions"), (Metric.statements, "statements"),
    (Metric.complexity, "complexity")]

/-- The main metrics of a file in one row. -/
def metricRow (t : UnitTree Float) : String :=
  "  ".intercalate (fileColumns.map fun (m, label) => s!"{t.count m} {label}")

/-- The text with blanks behind it up to a width. -/
def padRight (width : Nat) (text : String) : String :=
  text ++ String.ofList (List.replicate (width - text.length) ' ')

/-- The text with blanks before it up to a width. -/
def padLeft (width : Nat) (text : String) : String :=
  String.ofList (List.replicate (width - text.length) ' ') ++ text

/-- How a complexity is painted: the higher it is, the more alarming. -/
def complexityPaint (complexity : Int) : Paint :=
  if complexity ≤ 5 then .green else if complexity ≤ 10 then .yellow else .red

/-- A unit below a file, and how deep it lies; the units right below the file
have depth two. -/
structure UnitRow where
  depth : Nat
  key : String
  complexity : Int
  statements : Int
deriving DecidableEq, Repr

mutual
/-- The rows of a unit and of everything below it. -/
def unitRows (depth : Nat) : UnitTree Float → List UnitRow
  | ⟨_, key, _, _, measures, _, children⟩ =>
    ⟨depth, key, measures.count Metric.complexity, measures.count Metric.statements⟩ ::
      unitRowsList (depth + 1) children

/-- The rows of units side by side. -/
def unitRowsList (depth : Nat) : List (UnitTree Float) → List UnitRow
  | [] => []
  | t :: ts => unitRows depth t ++ unitRowsList depth ts
end

/-- The line of a unit. -/
def UnitRow.line (colours : Bool) (r : UnitRow) : String :=
  let indent := String.ofList (List.replicate (2 * r.depth) ' ')
  let complexity := "complexity " ++ padLeft 3 (toString r.complexity)
  "  " ++ indent ++ padRight 32 r.key ++ " " ++
    painted colours (complexityPaint r.complexity) complexity ++ "  " ++
    painted colours .dimmed s!"{r.statements} statements"

/-! ## Blocks, as lists of lines -/

/-- The block of a file. -/
def fileBlock (colours : Bool) (t : UnitTree Float) : List String :=
  ["  " ++ painted colours .blue t.key, "    " ++ painted colours .dimmed (metricRow t)] ++
    (unitRowsList 2 t.children).map (UnitRow.line colours) ++ [""]

/-- The head of the report. -/
def heading (colours : Bool) (subject : Subject) : List String :=
  ["", "  " ++ painted colours .title "astscan" ++ " v" ++ version, "",
    "  " ++ painted colours .dimmed "Scanning: " ++ subject.path] ++
  (match subject.config with
    | some config => ["  " ++ painted colours .dimmed "Config:   " ++ config]
    | none => []) ++
  [""]

/-- The block of the files that failed, if there are any. -/
def failureBlock (colours : Bool) (failures : List FileFailure) : List String :=
  if failures.isEmpty then []
  else
    ["  " ++ painted colours .bold "Failed" ++ s!" ({failures.length}):"] ++
      failures.map (fun f => "    " ++ painted colours .red "ERROR" ++ " " ++ f.error.message) ++
      [""]

/-- The last word of the summary. -/
def verdict (colours : Bool) (report : ScanReport) : String :=
  if report.cancelled then painted colours .yellow "CANCELLED"
  else if report.failures.isEmpty then painted colours .green "OK"
  else painted colours .red s!"{report.failures.length} FAILED"

/-- The line that sums the session up. -/
def summary (colours : Bool) (index : UnitIndex Float) (report : ScanReport) : String :=
  let project := index.project.measures
  let functions := project.count Metric.functions
  let code := project.count Metric.linesOfCode
  "  " ++ painted colours .bold s!"{report.scanned.length} files" ++
    "  " ++ painted colours .dimmed s!"{functions} functions" ++
    "  " ++ painted colours .dimmed s!"{code} loc" ++
    "  " ++ verdict colours report

/-- The files of an index as trees, in the order of insertion. -/
def fileTrees (index : UnitIndex Float) : List (UnitTree Float) :=
  (index.query .file).filterMap fun u => index.toTree u.id

/-- All lines of the report. -/
def prettyLines (colours : Bool) (subject : Subject) (index : UnitIndex Float)
    (report : ScanReport) : List String :=
  heading colours subject ++ (fileTrees index).flatMap (fileBlock colours) ++
    failureBlock colours report.failures ++ [summary colours index report, ""]

/-- The text of the report for readers. -/
def prettyText (colours : Bool) (subject : Subject) (index : UnitIndex Float)
    (report : ScanReport) : String :=
  String.join ((prettyLines colours subject index report).map (· ++ "\n"))

end SourceMetrics.Report
