/-
# The structured report

The report of a session as one value: what was scanned, what failed and the
whole project as a tree of units.
-/
import SourceMetrics.Report.Json
import SourceMetrics.Scan.Session

namespace SourceMetrics

/-- Measures as an object, by the names of the metrics. -/
def Measures.toJson {α : Type} (ms : Measures α) : Json α :=
  .object (ms.entries.map fun (m, x) => (m, .amount x))

/-- The lines of a list as numbers. -/
def Json.ofLines {α : Type} (lines : List Nat) : Json α := .list (lines.map .count)

namespace UnitTree

variable {α : Type}

mutual
/-- A unit with everything below it; the list of lines is left out where it
is empty. -/
def toJson : UnitTree α → Json α
  | ⟨kind, key, startLine, own, measures, noSonarLines, children⟩ =>
    .object <|
      [("kind", .text kind.name), ("key", .text key), ("start_line", .count startLine),
        ("own", own.toJson), ("measures", measures.toJson)] ++
      (if noSonarLines.isEmpty then [] else [("no_sonar_lines", Json.ofLines noSonarLines)]) ++
      [("children", .list (toJsonList children))]

/-- Units side by side. -/
def toJsonList : List (UnitTree α) → List (Json α)
  | [] => []
  | t :: ts => t.toJson :: toJsonList ts
end

end UnitTree

namespace SourceUnit

/-- A unit of the index, with the ids of its neighbours. -/
def toJson {α : Type} (u : SourceUnit α) : Json α :=
  .object
    [("id", .count u.id), ("kind", .text u.kind.name), ("key", .text u.key),
      ("start_line", .count u.startLine), ("own", u.own.toJson),
      ("measures", u.measures.toJson), ("no_sonar_lines", Json.ofLines u.noSonarLines),
      ("parent", match u.parent with | some p => .count p | none => .null),
      ("children", Json.ofLines u.children)]

end SourceUnit

namespace Report

/-- The version the reports name. -/
def version : String := "0.1.0"

/-- What a report is about. -/
structure Subject where
  path : String
  /-- The settings file that was used. -/
  config : Option String

/-- The project of an index as a tree of its own. -/
def projectTree {α : Type} (index : UnitIndex α) : UnitTree α :=
  (index.toTree UnitIndex.projectId).getD
    ⟨.project, index.project.key, 0, .empty, .empty, [], []⟩

/-- The report of a session as a value. -/
def structured {α : Type} (subject : Subject) (index : UnitIndex α) (report : ScanReport) :
    Json α :=
  .object <|
    [("version", .text version), ("path", .text subject.path)] ++
    (match subject.config with
      | some config => [("config", .text config)]
      | none => []) ++
    [("files_scanned", .count report.scanned.length)] ++
    (if report.failures.isEmpty then []
      else
        [("failures", .list (report.failures.map fun f =>
          .object [("file", .text f.file), ("error", .text f.error.message)]))]) ++
    [("cancelled", .bool report.cancelled), ("project", (projectTree index).toJson)]

/-- The text of the structured report. -/
def structuredText (subject : Subject) (index : UnitIndex Float) (report : ScanReport) : String :=
  (structured subject index report).pretty Json.floatText 0 ++ "\n"

end Report
end SourceMetrics
