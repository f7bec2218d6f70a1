/-
# Tokens and spans of a converted tree

The tokens of a converted tree are the leaves of the parser's tree, with
their texts and their spans (`exists_leaf_of_mem_convertRoot`).  Where the
points of a leaf are those of its byte offsets, and the leaf has a text,
the span covers lines of the text only (`lastLine_le_of_placed`).  The end
of a span is exclusive, so a leaf that ends behind a line break ends on the
line before.
-/
import SourceMetrics.Proofs.SyntaxTree.Cursor
import SourceMetrics.Proofs.Text.Lines

namespace SourceMetrics
namespace RawNode

variable {source : Source}

/-! ## Tokens -/

/-- A token of a syntax tree is a leaf below the root of the parser's tree. -/
theorem exists_leaf_of_mem_convertRoot {root : RawNode} {rootSpan : Span} {n : Node}
    (htoken : n.token.isSome) (hn : n ∈ (root.convertRoot source rootSpan).preorder) :
    ∃ l ∈ preorderList root.children, l.children = [] ∧ n = leaf source l := by
  rcases List.mem_cons.mp hn with rfl | hn
  · cases htoken
  · obtain ⟨l, hl, hrenders⟩ := exists_renders_of_mem hn
    have hleaf : l.children = [] := by
      refine Decidable.byContradiction fun hne => ?_
      rw [hrenders.token, if_neg hne] at htoken
      cases htoken
    exact ⟨l, hl, hleaf, hrenders.eq_leaf hleaf⟩

/-! ## Spans of leaves -/

/-- The points of a node are those of its byte offsets. -/
structure Placed (text : String) (n : RawNode) : Prop where
  start : n.label.start = Point.ofOffset (Text.bytes text) n.label.startByte
  stop : n.label.stop = Point.ofOffset (Text.bytes text) n.label.endByte

instance (text : String) (n : RawNode) : Decidable (n.Placed text) :=
  decidable_of_iff (n.label.start = Point.ofOffset (Text.bytes text) n.label.startByte ∧
    n.label.stop = Point.ofOffset (Text.bytes text) n.label.endByte)
    ⟨fun h => ⟨h.1, h.2⟩, fun h => ⟨h.start, h.stop⟩⟩

theorem bytes_ne_nil_of_text {text : String} {n : RawNode} (h : n.text text.toUTF8 ≠ "") :
    ((Text.bytes text).take n.label.endByte).drop n.label.startByte ≠ [] := by
  intro hnil
  refine h ?_
  have hextract : text.toUTF8.extract n.label.startByte n.label.endByte = ByteArray.empty := by
    refine ByteArray.ext (Array.toList_inj.mp ?_)
    rw [ByteArray.data_extract, Array.toList_extract, List.extract_eq_take_drop, ← List.drop_take]
    exact hnil
  rw [RawNode.text, hextract]
  rfl

/-- A placed leaf with a text covers lines of the text only. -/
theorem lastLine_le_of_placed {text : String} {n : RawNode} (h : n.Placed text)
    (htext : n.text text.toUTF8 ≠ "") : n.span.lastLine ≤ (Text.lines text).length := by
  have hbytes := bytes_ne_nil_of_text htext
  simp only [Span.lastLine, span, h.start, h.stop]
  by_cases hcolumn : (Point.ofOffset (Text.bytes text) n.label.endByte).column = 0
  · -- The leaf ends behind a line feed that is its own.
    have hrows := Point.row_lt_row hbytes hcolumn
    rw [if_pos ⟨by omega, by omega⟩]
    exact Point.row_le_length_lines text n.label.endByte
  · rw [if_neg fun hends => hcolumn (by omega)]
    exact Point.row_lt_length_lines hcolumn

end RawNode
end SourceMetrics
