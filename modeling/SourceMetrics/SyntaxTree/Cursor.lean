/-
# `RawCursor` — one place in the tree of an external parser

An external parser lets its tree be walked with a cursor.  It stands on one
node and moves a step at a time: down to the first child, on to the next
sibling, up to the parent.  A move that leads nowhere says so, and the node
the cursor was set on has neither a parent nor siblings for it.

    above ─┬─ before …        `before` has the nearest sibling first,
           ├─ node            `behind` those still to come, in order
           └─ behind …
-/
import SourceMetrics.SyntaxTree.Raw

namespace SourceMetrics

/-- A step down that a cursor has made: the node it came from, and that
node's children on either side of the one it went to. -/
structure RawStep where
  label : RawLabel
  /-- The siblings before, the nearest first. -/
  before : List RawNode
  behind : List RawNode

/-- A place in a tree: the node there, and the steps down to it, the latest
first. -/
structure RawCursor where
  node : RawNode
  above : List RawStep

namespace RawCursor

/-- A cursor set on a node. -/
def start (n : RawNode) : RawCursor := ⟨n, []⟩

/-! ## Moves -/

/-- Down to the first child. -/
def firstChild? (c : RawCursor) : Option RawCursor :=
  match c.node.children with
  | [] => none
  | child :: rest => some ⟨child, ⟨c.node.label, [], rest⟩ :: c.above⟩

/-- On to the next sibling. -/
def nextSibling? (c : RawCursor) : Option RawCursor :=
  match c.above with
  | ⟨label, before, next :: behind⟩ :: above =>
    some ⟨next, ⟨label, c.node :: before, behind⟩ :: above⟩
  | _ => none

/-- Up to the parent. -/
def parent? (c : RawCursor) : Option RawCursor :=
  match c.above with
  | [] => none
  | ⟨label, before, behind⟩ :: above =>
    some ⟨⟨label, before.reverse ++ c.node :: behind⟩, above⟩

/-! ## What lies ahead -/

/-- How many nodes lie behind the steps of a cursor. -/
def sizeBehind : List RawStep → Nat
  | [] => 0
  | step :: above => RawNode.sizeList step.behind + sizeBehind above

/-- How many nodes a cursor has still to come to, its own among them. -/
def toCome (c : RawCursor) : Nat := c.node.size + sizeBehind c.above

theorem toCome_firstChild {c child : RawCursor} (h : c.firstChild? = some child) :
    child.toCome < c.toCome := by
  obtain ⟨⟨label, children⟩, above⟩ := c
  cases children with
  | nil => cases h
  | cons first rest =>
      cases h
      simp only [toCome, sizeBehind, RawNode.size, RawNode.sizeList]
      omega

theorem toCome_nextSibling {c next : RawCursor} (h : c.nextSibling? = some next) :
    next.toCome = sizeBehind c.above := by
  obtain ⟨node, _ | ⟨⟨label, before, _ | ⟨sibling, behind⟩⟩, above⟩⟩ := c
  · cases h
  · cases h
  · cases h
    simp only [toCome, sizeBehind, RawNode.sizeList, Nat.add_assoc]

/-- Where there is no next sibling, nothing lies behind the latest step. -/
theorem sizeBehind_parent {c above : RawCursor} (hnext : c.nextSibling? = none)
    (h : c.parent? = some above) : sizeBehind above.above = sizeBehind c.above := by
  obtain ⟨node, _ | ⟨⟨label, before, _ | ⟨sibling, behind⟩⟩, steps⟩⟩ := c
  · cases h
  · cases h
    simp only [sizeBehind, RawNode.sizeList, Nat.zero_add]
  · cases hnext

theorem length_parent {c above : RawCursor} (h : c.parent? = some above) :
    c.above.length = above.above.length + 1 := by
  obtain ⟨node, _ | ⟨step, steps⟩⟩ := c
  · cases h
  · cases h
    rfl

end RawCursor
end SourceMetrics
