/-
# `RawNode` — the tree an external parser gives

Positions are rows and columns counted from zero, columns in bytes of
UTF-8, and every node also has its byte offsets in the text.  A node that
stands for an error says so, one that the parser invented is marked
missing, and `hasError` says whether there is either in the subtree.
-/
import SourceMetrics.SyntaxTree.Outline

namespace SourceMetrics

/-- A row and a column in bytes, both counted from zero. -/
structure Point where
  row : Nat
  column : Nat
deriving DecidableEq, Repr, Inhabited

/-- Everything about a node of an external parser but its children. -/
structure RawLabel where
  kind : String
  field : Option String
  startByte : Nat
  endByte : Nat
  start : Point
  stop : Point
  isMissing : Bool
  isError : Bool
  hasError : Bool
deriving DecidableEq, Repr, Inhabited

/-- A node of the tree an external parser gives. -/
structure RawNode where
  label : RawLabel
  children : List RawNode
deriving Inhabited

namespace RawNode

mutual
/-- How many nodes the tree has. -/
def size : RawNode → Nat
  | ⟨_, children⟩ => 1 + sizeList children

/-- How many nodes a list of trees has. -/
def sizeList : List RawNode → Nat
  | [] => 0
  | n :: ns => n.size + sizeList ns
end

mutual
/-- The nodes of the tree, each before its children. -/
def preorder : RawNode → List RawNode
  | ⟨label, children⟩ => ⟨label, children⟩ :: preorderList children

/-- The nodes of a list of trees, each before its children. -/
def preorderList : List RawNode → List RawNode
  | [] => []
  | n :: ns => n.preorder ++ preorderList ns
end

theorem size_eq (n : RawNode) : n.size = 1 + sizeList n.children := by
  cases n; rfl

@[simp] theorem sizeList_append (ms ns : List RawNode) :
    sizeList (ms ++ ns) = sizeList ms + sizeList ns := by
  induction ms with
  | nil => simp [sizeList]
  | cons m ms ih => simp [sizeList, ih]; omega

/-- The text of the node: its stretch of bytes, nothing where that is no
text. -/
def text (source : ByteArray) (n : RawNode) : String :=
  (String.fromUTF8? (source.extract n.label.startByte n.label.endByte)).getD ""

/-- The tree of rows that list each node before its children. -/
def ofRows? (rows : List (Nat × RawLabel)) : Option RawNode :=
  Outline.tree? (fun label children => ⟨label, children⟩) rows

end RawNode
end SourceMetrics
