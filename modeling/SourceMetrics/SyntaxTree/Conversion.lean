/-
# From the tree of an external parser to a syntax tree

Every node keeps its kind, its role and its place among the children, and
its position is counted from one.  A node without children becomes a leaf
with its text, as a comment where the language says its kind is one.  The
root is different: it spans the whole text, whatever the parser says, and
it is no leaf even where it has no children.

`convert` says this by recursion.  `convertLoop` does it with a cursor and a
stack of the branches that are open around it, so that nothing bounds the
depth of a tree but memory.
-/
import SourceMetrics.SyntaxTree.Node
import SourceMetrics.SyntaxTree.Cursor
import SourceMetrics.Text.Lines

namespace SourceMetrics
namespace RawNode

/-- The span between two points, counted from one. -/
def span (n : RawNode) : Span :=
  ⟨n.label.start.row + 1, n.label.start.column + 1, n.label.stop.row + 1, n.label.stop.column + 1⟩

/-- The span of a whole text: from its first line to its last, which there
always is, and to the end of that. -/
def textSpan (text : String) : Span :=
  let lines := Text.lines text
  ⟨1, 1, max lines.length 1, (lines.getLast?.map List.length).getD 0 + 1⟩

/-- What a conversion depends on besides the tree. -/
structure Source where
  bytes : ByteArray
  commentTypes : List String

/-- A leaf with its text. -/
def leaf (source : Source) (n : RawNode) : Node :=
  let kind : TokenKind := if source.commentTypes.contains n.label.kind then .comment else .code
  ⟨n.label.kind, n.span, n.label.field, some ⟨n.text source.bytes, kind⟩, []⟩

/-! ## By recursion -/

mutual
/-- The syntax tree of a node below the root. -/
def convert (source : Source) : RawNode → Node
  | ⟨label, []⟩ => leaf source ⟨label, []⟩
  | ⟨label, child :: rest⟩ =>
    ⟨label.kind, span ⟨label, child :: rest⟩, label.field, none,
      child.convert source :: convertList source rest⟩

/-- The syntax trees of nodes side by side. -/
def convertList (source : Source) : List RawNode → List Node
  | [] => []
  | n :: rest => n.convert source :: convertList source rest
end

/-- The syntax tree of a root that spans the given stretch. -/
def convertRoot (source : Source) (rootSpan : Span) (root : RawNode) : Node :=
  ⟨root.label.kind, rootSpan, none, none, convertList source root.children⟩

/-! ## With a cursor -/

/-- A branch that is being converted. -/
structure Branch where
  kind : String
  span : Span
  field : Option String
  /-- The children converted so far, the latest first. -/
  done : List Node

namespace Branch

/-- A branch for a node, without its children. -/
def ofNode (n : RawNode) : Branch := ⟨n.label.kind, n.span, n.label.field, []⟩

/-- The branch with one more child. -/
def add (b : Branch) (n : Node) : Branch := { b with done := n :: b.done }

/-- The finished branch. -/
def build (b : Branch) : Node := ⟨b.kind, b.span, b.field, none, b.done.reverse⟩

/-- Closes a branch and those around it, the innermost first, and gives the
last. -/
def close (b : Branch) : List Branch → Node
  | [] => b.build
  | around :: outer => close (around.add b.build) outer

end Branch

/-- The branches that are being converted, one within the other.  The
outermost is that of the root. -/
structure Branches where
  /-- The innermost branch. -/
  top : Branch
  /-- The branches around it, the innermost first. -/
  outer : List Branch

namespace Branches

/-- The branches with one more child of the innermost. -/
def add (bs : Branches) (n : Node) : Branches := { bs with top := bs.top.add n }

/-- The branches with one more, inside the innermost. -/
def push (bs : Branches) (b : Branch) : Branches := ⟨b, bs.top :: bs.outer⟩

end Branches

/-- Goes from a converted node to the next that is not, if there is one.
Where a node has no next sibling the cursor goes up and the branch ends. -/
def advance (c : RawCursor) (bs : Branches) : Option RawCursor × Branches :=
  match c.nextSibling? with
  | some next => (some next, bs)
  | none =>
    match bs.outer with
    | [] => (none, bs)
    | around :: outer =>
      match _h : c.parent? with
      | none => (none, bs)
      | some above => advance above ⟨around.add bs.top.build, outer⟩
termination_by c.above.length
decreasing_by
  have := RawCursor.length_parent _h
  omega

theorem toCome_advance {c next : RawCursor} {bs bs' : Branches}
    (h : advance c bs = (some next, bs')) : next.toCome = RawCursor.sizeBehind c.above := by
  fun_induction advance c bs with
  | case1 c bs sibling hnext =>
      cases h
      exact RawCursor.toCome_nextSibling hnext
  | case2 => cases h
  | case3 => cases h
  | case4 c bs hnext around outer houter above hparent ih =>
      rw [ih h, RawCursor.sizeBehind_parent hnext hparent]

/-- Converts what a cursor still comes to, its node first, and gives the
branches that are left open. -/
def convertLoop (source : Source) (c : RawCursor) (bs : Branches) : Branches :=
  match _hchild : c.firstChild? with
  | some child => convertLoop source child (bs.push (.ofNode c.node))
  | none =>
    match _hnext : advance c (bs.add (leaf source c.node)) with
    | (some next, bs) => convertLoop source next bs
    | (none, bs) => bs
termination_by c.toCome
decreasing_by
  · exact RawCursor.toCome_firstChild _hchild
  · rw [toCome_advance _hnext, RawCursor.toCome, size_eq]
    omega

/-- The branches left open once a root, which spans the given stretch, was
walked through. -/
def convertBelow (source : Source) (rootSpan : Span) (root : RawNode) : Branches :=
  let bs : Branches := ⟨⟨root.label.kind, rootSpan, none, []⟩, []⟩
  match (RawCursor.start root).firstChild? with
  | some child => convertLoop source child bs
  | none => bs

/-- The syntax tree of a root that spans the given stretch, with a cursor. -/
def convertStack (source : Source) (rootSpan : Span) (root : RawNode) : Node :=
  let bs := convertBelow source rootSpan root
  bs.top.close bs.outer

end RawNode
end SourceMetrics
