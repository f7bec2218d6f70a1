/-
# `UnitIndex` — all units of a session

The index is an arena: a unit's id is its position, the project has id 0.
The tree of a scanned file is taken in whole under the project, each unit
before its children, so that a subtree lies in one stretch of ids.  Beside
the arena, tables lead from a kind and from a kind and key to the ids, in
the order of insertion.

The project's measures are kept up to date: `gathered` holds what the files
taken in so far add up to.
-/
import Std.Data.HashMap
import SourceMetrics.Metric.Registry
import SourceMetrics.Unit.Tree

namespace SourceMetrics

/-- A unit in the index, linked to others by their ids. -/
structure SourceUnit (α : Type) where
  id : Nat
  kind : UnitKind
  key : String
  startLine : Nat
  /-- What was recorded directly on the unit. -/
  own : Measures α
  /-- The totals of the unit. -/
  measures : Measures α
  noSonarLines : List Nat
  parent : Option Nat
  children : List Nat

/-- All units of a session. -/
structure UnitIndex (α : Type) where
  units : Array (SourceUnit α)
  byKind : List (UnitKind × List Nat)
  byKey : Std.HashMap (UnitKind × String) (List Nat)
  registry : MetricRegistry α
  /-- The totals of all files so far, folded together. -/
  gathered : Measures α

namespace UnitIndex

variable {α : Type}

/-- The id of the project. -/
def projectId : Nat := 0

/-- The project before any file. -/
def emptyProject (key : String) : SourceUnit α :=
  ⟨projectId, .project, key, 0, .empty, .empty, [], none, []⟩

/-- Adds an id to those of a kind. -/
def addToKind (id : Nat) (kind : UnitKind) :
    List (UnitKind × List Nat) → List (UnitKind × List Nat)
  | [] => [(kind, [id])]
  | (k, ids) :: rest => if k = kind then (k, ids ++ [id]) :: rest else (k, ids) :: addToKind id kind rest

/-- Appends a unit and enters it into the tables. -/
def register (index : UnitIndex α) (u : SourceUnit α) : UnitIndex α :=
  { index with
    units := index.units.push u
    byKind := addToKind u.id u.kind index.byKind
    byKey := index.byKey.insert (u.kind, u.key) (index.byKey.getD (u.kind, u.key) [] ++ [u.id]) }

/-- An index that holds the project alone. -/
def new (projectKey : String) (registry : MetricRegistry α) : UnitIndex α :=
  register ⟨#[], [], ∅, registry, .empty⟩ (emptyProject projectKey)

/-! ## Queries -/

def get? (index : UnitIndex α) (id : Nat) : Option (SourceUnit α) := index.units[id]?

/-- The units with the given ids. -/
def unitsAt (index : UnitIndex α) (ids : List Nat) : List (SourceUnit α) :=
  ids.filterMap index.get?

/-- The project. -/
def project (index : UnitIndex α) : SourceUnit α :=
  (index.get? projectId).getD (emptyProject "")

/-- How many units there are, the project among them. -/
def size (index : UnitIndex α) : Nat := index.units.size

/-- Whether there is only the project. -/
def isEmpty (index : UnitIndex α) : Bool := index.units.size = 1

/-- The units of a kind, in the order of insertion. -/
def query (index : UnitIndex α) (kind : UnitKind) : List (SourceUnit α) :=
  index.unitsAt ((index.byKind.lookup kind).getD [])

/-- The first unit inserted with the given kind and key. -/
def findByKey (index : UnitIndex α) (kind : UnitKind) (key : String) : Option (SourceUnit α) :=
  ((index.byKey.getD (kind, key) []).head?).bind index.get?

/-- The units right below one. -/
def children (index : UnitIndex α) (id : Nat) : List (SourceUnit α) :=
  match index.get? id with
  | some u => index.unitsAt u.children
  | none => []

/-- The first unit right below one with the given kind and key. -/
def findIn (index : UnitIndex α) (parent : Nat) (kind : UnitKind) (key : String) :
    Option (SourceUnit α) :=
  (index.children parent).find? (fun u => u.kind = kind && u.key == key)

/-- The unit right above one. -/
def parent? (index : UnitIndex α) (id : Nat) : Option (SourceUnit α) :=
  ((index.get? id).bind (·.parent)).bind index.get?

theorem lt_size_of_get? {index : UnitIndex α} {id : Nat} {u : SourceUnit α}
    (h : index.get? id = some u) : id < index.units.size := by
  simp only [get?] at h
  exact (Array.getElem?_eq_some_iff.mp h).1

/-- The ids below one, each before those below it.  A child has a larger id
than its parent, so the way down ends at the last unit. -/
def idsBelow (index : UnitIndex α) (id : Nat) : List Nat :=
  match _h : index.get? id with
  | none => []
  | some u =>
    u.children.flatMap fun c => if id < c then c :: index.idsBelow c else []
termination_by index.units.size - id
decreasing_by
  have := lt_size_of_get? _h
  omega

/-- The children of a unit that have a larger id than the unit. -/
def childrenAfter (id : Nat) (u : SourceUnit α) : List Nat := u.children.filter (id < ·)

theorem idsBelow_eq {index : UnitIndex α} {id : Nat} {u : SourceUnit α}
    (h : index.get? id = some u) :
    index.idsBelow id = (childrenAfter id u).flatMap fun c => c :: index.idsBelow c := by
  rw [idsBelow]
  split
  next hnone => rw [hnone] at h; cases h
  next v hv =>
    obtain rfl := Option.some.inj (hv.symm.trans h)
    unfold childrenAfter
    induction v.children with
    | nil => rfl
    | cons c cs ih =>
        by_cases hc : id < c
        · simp only [List.flatMap_cons, List.filter_cons, hc, decide_true, if_true, ih]
        · simp only [List.flatMap_cons, List.filter_cons, hc, decide_false, if_false, ih,
            Bool.false_eq_true, List.nil_append]

theorem length_idsBelow {index : UnitIndex α} {id : Nat} {u : SourceUnit α}
    (h : index.get? id = some u) :
    (index.idsBelow id).length =
      ((childrenAfter id u).map fun c => (index.idsBelow c).length + 1).sum := by
  simp only [idsBelow_eq h, List.length_flatMap, List.length_cons]

/-- Takes ids off `stack`, the next one first, and adds their units to
`found`, the latest first. -/
def descendantsLoop (index : UnitIndex α) (stack : List Nat) (found : List (SourceUnit α)) :
    List (SourceUnit α) :=
  match stack with
  | [] => found.reverse
  | id :: rest =>
    match _h : index.get? id with
    | none => index.descendantsLoop rest found
    | some u => index.descendantsLoop (childrenAfter id u ++ rest) (u :: found)
termination_by (stack.map fun id => (index.idsBelow id).length + 1).sum
decreasing_by
  · simp only [List.map_cons, List.sum_cons]; omega
  · have := index.length_idsBelow _h
    simp only [List.map_append, List.sum_append, List.map_cons, List.sum_cons]
    omega

/-- The units below one, each before those below it, with a stack. -/
def descendants (index : UnitIndex α) (id : Nat) : List (SourceUnit α) :=
  match index.get? id with
  | none => []
  | some u => index.descendantsLoop (childrenAfter id u) []

/-- A unit with everything below it, as a tree of its own. -/
def toTree (index : UnitIndex α) (id : Nat) : Option (UnitTree α) :=
  match _h : index.get? id with
  | none => none
  | some u => some
    ⟨u.kind, u.key, u.startLine, u.own, u.measures, u.noSonarLines,
      u.children.filterMap fun c => if id < c then index.toTree c else none⟩
termination_by index.units.size - id
decreasing_by
  have := lt_size_of_get? _h
  omega

/-! ## Insertion -/

variable [Amount α]

/-- Whether a unit right below the project has the key. -/
def holdsFile (index : UnitIndex α) (key : String) : Bool :=
  (index.children projectId).any (·.key == key)

/-- The project with one more file, and its totals brought up to date. -/
def addToProject (index : UnitIndex α) (id : Nat) : UnitIndex α :=
  { index with
    units := index.units.modify projectId fun p =>
      { p with
        children := p.children ++ [id]
        measures := index.registry.finalize p.own index.gathered } }

/-- Enters a unit among the children of another. -/
def addChild (index : UnitIndex α) (parent id : Nat) : UnitIndex α :=
  { index with
    units := index.units.modify parent fun u => { u with children := u.children ++ [id] } }

mutual
/-- Takes a tree in below a unit, the root of the tree first, and gives the
id of the root. -/
def attach (index : UnitIndex α) (parent : Nat) : UnitTree α → Nat × UnitIndex α
  | ⟨kind, key, startLine, own, measures, noSonarLines, children⟩ =>
    let id := index.units.size
    let index := index.register
      ⟨id, kind, key, startLine, own, measures, noSonarLines, some parent, []⟩
    (id, attachList index id children)

/-- Takes trees in side by side below a unit, which gets their roots as
children one by one. -/
def attachList (index : UnitIndex α) (parent : Nat) : List (UnitTree α) → UnitIndex α
  | [] => index
  | t :: ts =>
    let (id, index) := attach index parent t
    attachList (index.addChild parent id) parent ts
end

/-- Takes a finished tree in under the project and gives its id.  Keys are
unique below the project: a second tree of the same key is refused and
leaves the index as it is. -/
def insert (index : UnitIndex α) (tree : UnitTree α) : Except ScanError (Nat × UnitIndex α) :=
  if index.holdsFile tree.key then
    .error (.invariant (.alreadyIndexed tree.kind tree.key))
  else
    let gathered := index.registry.mergeChild index.gathered tree.measures
    let (id, grown) := attach { index with gathered := gathered } projectId tree
    .ok (id, grown.addToProject id)

end UnitIndex
end SourceMetrics
