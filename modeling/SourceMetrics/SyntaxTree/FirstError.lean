/-
# The first error of a parse

A tree in error has a node that is missing or stands for an error.  The
search goes through the nodes in source order and leaves out the subtrees
that are not marked to hold an error.
-/
import SourceMetrics.Scan.Error
import SourceMetrics.SyntaxTree.Raw

namespace SourceMetrics
namespace RawNode

/-- The error a node itself stands for. -/
def ownError (source : ByteArray) (n : RawNode) : Option ParseError :=
  let line := n.label.start.row + 1
  let column := n.label.start.column + 1
  if n.label.isMissing then some ⟨line, column, .missing n.label.kind⟩
  else if n.label.isError then some ⟨line, column, .unexpected (n.text source)⟩
  else none

/-- The first error among subtrees, the next one first. -/
def firstErrorLoop (source : ByteArray) (stack : List RawNode) : ParseError :=
  match stack with
  | [] => ⟨1, 1, .unlocated⟩
  | n :: rest =>
    match n.ownError source with
    | some e => e
    | none =>
      if n.label.hasError then firstErrorLoop source (n.children ++ rest)
      else firstErrorLoop source rest
termination_by sizeList stack
decreasing_by
  · simp only [sizeList, sizeList_append, size_eq n]; omega
  · simp only [sizeList, size_eq n]; omega

/-- The first error of a tree. -/
def firstError (source : ByteArray) (root : RawNode) : ParseError :=
  firstErrorLoop source [root]

end RawNode
end SourceMetrics
