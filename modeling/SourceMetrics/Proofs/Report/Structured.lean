/-
# What the structured report says

The report of a session is one value, read by the names of members within
members (`Json.at?`).  A list that is left out where it is empty is read as
an empty one (`Json.listed`).

A report is made of what the session came to and of the project tree of its
index, and each member comes from one of them: the number of files scanned
and the failures from the session, the units and their measures from the
tree.
-/
import Mathlib.Data.List.Basic
import SourceMetrics.Report.Structured

namespace SourceMetrics

variable {α : Type}

/-! ## Members by name -/

namespace Json

/-- What an object has under a name. -/
def field? (name : String) : Json α → Option (Json α)
  | object members => members.lookup name
  | _ => none

/-- The items of a list. -/
def items : Json α → List (Json α)
  | list items => items
  | _ => []

/-- What objects have under names, each in what the one before has. -/
def at? (value : Json α) : List String → Option (Json α)
  | [] => some value
  | name :: rest => (value.field? name).bind (·.at? rest)

/-- The items of the list that objects have under names, if there is one. -/
def listed (value : Json α) (names : List String) : List (Json α) :=
  ((value.at? names).map items).getD []

theorem at?_singleton (value : Json α) (name : String) : value.at? [name] = value.field? name :=
  Option.bind_fun_some (value.field? name)

end Json

/-- Measures are listed by the names of the metrics. -/
theorem Measures.field?_toJson (ms : Measures α) (m : Metric) :
    ms.toJson.field? m = (ms.value? m).map .amount := by
  show (ms.entries.map fun entry => (entry.1, Json.amount entry.2)).lookup m =
    (Entries.find m ms.entries).map .amount
  induction ms.entries with
  | nil => rfl
  | cons entry rest ih =>
      obtain ⟨k, x⟩ := entry
      rw [List.map_cons, List.lookup_cons, Entries.find]
      by_cases hk : k = m
      · rw [if_pos hk, beq_iff_eq.mpr hk.symm]
        rfl
      · rw [if_neg hk, beq_eq_false_iff_ne.mpr (Ne.symm hk)]
        exact ih

/-! ## Units -/

namespace UnitTree

theorem toJsonList_eq_map (ts : List (UnitTree α)) : toJsonList ts = ts.map toJson := by
  induction ts with
  | nil => rfl
  | cons t ts ih => rw [toJsonList, ih, List.map_cons]

theorem key_toJson (t : UnitTree α) : t.toJson.at? ["key"] = some (.text t.key) := by
  obtain ⟨kind, key, line, own, measures, lines, children⟩ := t
  rw [toJson]
  cases lines <;> rfl

theorem measures_toJson (t : UnitTree α) (m : Metric) :
    t.toJson.at? ["measures", m] = (t.measures.value? m).map .amount := by
  rw [← t.measures.field?_toJson, ← Json.at?_singleton]
  obtain ⟨kind, key, line, own, measures, lines, children⟩ := t
  rw [toJson]
  cases lines <;> rfl

theorem children_toJson (t : UnitTree α) :
    t.toJson.listed ["children"] = t.children.map toJson := by
  obtain ⟨kind, key, line, own, measures, lines, children⟩ := t
  rw [toJson, toJsonList_eq_map]
  cases lines <;> rfl

end UnitTree

/-! ## Sessions -/

namespace Report

section
variable (subject : Subject) (index : UnitIndex α) (report : ScanReport)

theorem filesScanned_structured :
    (structured subject index report).at? ["files_scanned"] =
      some (.count report.scanned.length) := by
  obtain ⟨path, config⟩ := subject
  cases config <;> rfl

theorem failures_structured :
    ((structured subject index report).listed ["failures"]).map (·.at? ["file"]) =
      report.failures.map fun failure => some (.text failure.file) := by
  obtain ⟨path, config⟩ := subject
  obtain ⟨scanned, failures, cancelled⟩ := report
  have hfiles : (failures.map fun f => (Json.object
      [("file", .text f.file), ("error", .text f.error.message)] : Json α)).map (·.at? ["file"]) =
        failures.map fun f => some (.text f.file) := by
    rw [List.map_map]
    rfl
  cases failures with
  | nil => cases config <;> rfl
  | cons failure rest => cases config <;> exact hfiles

theorem project_structured (names : List String) :
    (structured subject index report).at? ("project" :: names) =
      (projectTree index).toJson.at? names := by
  obtain ⟨path, config⟩ := subject
  obtain ⟨scanned, failures, cancelled⟩ := report
  cases config <;> cases failures <;> rfl

theorem childKeys_structured :
    ((structured subject index report).listed ["project", "children"]).map (·.at? ["key"]) =
      (projectTree index).children.map fun t => some (.text t.key) := by
  rw [Json.listed, project_structured]
  show ((projectTree index).toJson.listed ["children"]).map _ = _
  rw [UnitTree.children_toJson, List.map_map]
  exact List.map_congr_left fun t _ => t.key_toJson

end
end Report
end SourceMetrics
