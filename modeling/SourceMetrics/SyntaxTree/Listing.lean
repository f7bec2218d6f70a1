/-
# `Listing` — the tree of an external parser as lines

An external parser hands its tree over as a text: a line for each node, the
node before its children, with ten fields between tabs.  They are the depth,
the kind, the role or nothing, the byte offsets of both ends, the row and
the column of both ends, and the letters of what is noted about the node.
-/
import SourceMetrics.SyntaxTree.Raw
import SourceMetrics.Text.Lines

namespace SourceMetrics.RawNode

/-- The letters of a missing node, of an error and of a node with one of
them in its subtree. -/
def missingLetter : Char := 'm'

def errorLetter : Char := 'e'

def hasErrorLetter : Char := 'h'

/-- The row of a line's fields. -/
def rowOfFields? : List String → Option (Nat × RawLabel)
  | [depth, kind, role, startByte, endByte, startRow, startColumn, endRow, endColumn, notes] => do
    return (← depth.toNat?,
      { kind := kind
        field := if role.isEmpty then none else some role
        startByte := ← startByte.toNat?
        endByte := ← endByte.toNat?
        start := ⟨← startRow.toNat?, ← startColumn.toNat?⟩
        stop := ⟨← endRow.toNat?, ← endColumn.toNat?⟩
        isMissing := notes.toList.contains missingLetter
        isError := notes.toList.contains errorLetter
        hasError := notes.toList.contains hasErrorLetter })
  | _ => none

/-- The tree of a listing, where it is one. -/
def ofListing? (listing : String) : Option RawNode := do
  let rows ← (Text.lines listing).mapM fun line =>
    rowOfFields? ((String.ofList line).splitOn "\t")
  ofRows? rows

end SourceMetrics.RawNode
