/-
# `UnitKind` — what a unit of source is

A project holds files, a file holds classes and functions, and both of
these may nest.
-/
namespace SourceMetrics

/-- What a unit of source is. -/
inductive UnitKind where
  | project
  | file
  | cls
  | function
deriving DecidableEq, Repr, Hashable, Inhabited

namespace UnitKind

/-- The name a kind has in reports. -/
def name : UnitKind → String
  | project => "project"
  | file => "file"
  | cls => "class"
  | function => "function"

/-- The kind of a name. -/
def ofName? : String → Option UnitKind
  | "project" => some project
  | "file" => some file
  | "class" => some cls
  | "function" => some function
  | _ => none

end UnitKind
end SourceMetrics
