/-
# `UnitTree` — a finished unit with everything below it

A traversal of one file gives one tree: the file at its root, the classes
and functions below it as they nest.  A tree stands on its own; the index
takes it in and gives each unit an id.
-/
import SourceMetrics.Metric.Measures
import SourceMetrics.Unit.Kind

namespace SourceMetrics

/-- A finished unit.  `own` is what was recorded directly on it, `measures`
its totals; `noSonarLines` are in order and without repetition. -/
structure UnitTree (α : Type) where
  kind : UnitKind
  key : String
  startLine : Nat
  own : Measures α
  measures : Measures α
  noSonarLines : List Nat
  children : List (UnitTree α)

namespace UnitTree

variable {α : Type}

instance : Inhabited (UnitTree α) := ⟨⟨default, "", 0, .empty, .empty, [], []⟩⟩

mutual
/-- How many units the tree has. -/
def unitCount : UnitTree α → Nat
  | ⟨_, _, _, _, _, _, children⟩ => 1 + unitCountList children

/-- How many units a list of trees has. -/
def unitCountList : List (UnitTree α) → Nat
  | [] => 0
  | t :: ts => t.unitCount + unitCountList ts
end

mutual
/-- The units of the tree, each before its children. -/
def preorder : UnitTree α → List (UnitTree α)
  | ⟨kind, key, line, own, measures, lines, children⟩ =>
    ⟨kind, key, line, own, measures, lines, children⟩ :: preorderList children

/-- The units of a list of trees, each before its children. -/
def preorderList : List (UnitTree α) → List (UnitTree α)
  | [] => []
  | t :: ts => t.preorder ++ preorderList ts
end

mutual
/-- The units of the tree with their depths, each before its children. -/
def outline (depth : Nat) : UnitTree α → List (Nat × UnitTree α)
  | ⟨kind, key, line, own, measures, lines, children⟩ =>
    (depth, ⟨kind, key, line, own, measures, lines, children⟩) :: outlineList (depth + 1) children

/-- The units of a list of trees with their depths. -/
def outlineList (depth : Nat) : List (UnitTree α) → List (Nat × UnitTree α)
  | [] => []
  | t :: ts => t.outline depth ++ outlineList depth ts
end

/-- The units of a kind, each before those below it. -/
def descendantsOfKind (t : UnitTree α) (kind : UnitKind) : List (UnitTree α) :=
  t.preorder.filter (fun u => u.kind = kind)

/-- The first child with the given key. -/
def child? (t : UnitTree α) (key : String) : Option (UnitTree α) :=
  t.children.find? (fun c => c.key == key)

/-- The total of a metric. -/
def metric [Amount α] (t : UnitTree α) (m : Metric) : α := t.measures.get m

/-- The total of a counting metric. -/
def count (t : UnitTree Float) (m : Metric) : Int := t.measures.count m

mutual
/-- Whether two trees agree in every unit, with values that compare equal. -/
def same [BEq α] : UnitTree α → UnitTree α → Bool
  | ⟨k, key, l, o, m, ns, cs⟩, ⟨k', key', l', o', m', ns', cs'⟩ =>
    k == k' && key == key' && l == l' && o.same o' && m.same m' && ns == ns' && sameList cs cs'

/-- Whether two lists of trees agree in every unit. -/
def sameList [BEq α] : List (UnitTree α) → List (UnitTree α) → Bool
  | [], [] => true
  | t :: ts, u :: us => t.same u && sameList ts us
  | _, _ => false
end

end UnitTree
end SourceMetrics
