/-
# What the span of the root covers

The root of a converted tree spans the whole text.  Its end is told from the
lines of the text, and its last column is a number of characters, while the
columns of all other nodes are numbers of bytes:

    // é      root ends at column 4 + 1, the comment within it at 5 + 1

So the root covers the nodes that end within `Text.reach` of the text, and no
others (`covers_iff_of_placed`).  These are all nodes that leave the end of
the text alone, if no character of the last line has more than one byte
(`Text.reach_eq_iff`).
-/
import SourceMetrics.SyntaxTree.External
import SourceMetrics.Proofs.SyntaxTree.Conversion
import SourceMetrics.Proofs.Text.LastLine

namespace SourceMetrics

open Text

namespace RawNode

/-- The span of a text ends at the point of its reach. -/
theorem textSpan_eq (text : String) :
    textSpan text = ⟨1, 1, (Point.ofOffset (bytes text) (reach text)).row + 1,
      (Point.ofOffset (bytes text) (reach text)).column + 1⟩ := by
  rw [ofOffset_reach, textSpan]
  by_cases h : text.toList = []
  · have hlines : lines text = [] := by rw [lines, h]; rfl
    rw [hlines, h]
    rfl
  · have hlast : (lines text).getLast? = some (lastLine text.toList) :=
      getLast?_linesFrom List.not_mem_nil h
    rw [length_lines_eq h, hlast, Nat.max_eq_left (Nat.le_add_left 1 _)]
    rfl

theorem toLex_succ_le_iff {p q : Point} :
    toLex (p.row + 1, p.column + 1) ≤ toLex (q.row + 1, q.column + 1) ↔ p ≤ q := by
  rw [Prod.Lex.toLex_le_toLex, Point.le_iff]
  omega

theorem one_le_start (n : RawNode) :
    toLex (1, 1) ≤ toLex (n.label.start.row + 1, n.label.start.column + 1) := by
  rw [Prod.Lex.toLex_le_toLex]
  omega

/-- The span of a text covers the nodes that end within its reach. -/
theorem covers_iff_of_placed {text : String} {n : RawNode} (h : n.Placed text)
    (hend : n.label.endByte ≤ (bytes text).length) :
    (textSpan text).Covers n.span ↔ n.label.endByte ≤ reach text := by
  rw [textSpan_eq, Span.Covers, span, and_iff_right n.one_le_start, toLex_succ_le_iff, h.stop,
    Point.ofOffset_le_ofOffset_iff hend (reach_le_length text)]

end RawNode

namespace Grammar

open RawNode

theorem parse_external_of_sound {language : String} {commentTypes nodeTypes : List String}
    {parser : String → Option RawNode} {text : String} {root : RawNode}
    (hparser : parser text = some root) (hsound : root.label.hasError = false) :
    (external language commentTypes nodeTypes parser).parse text =
      .ok (root.convertRoot ⟨text.toUTF8, commentTypes⟩ (textSpan text)) := by
  rw [parse_external hparser, treeOf, hsound, convertStack_eq]
  rfl

/-- The tree of a text whose parse holds no error, with the points of all nodes
below the root where their byte offsets are.  The root starts no later than
any of these nodes.  It covers just the ones that end within the reach of the
text, and so all that leave the end of the text alone, where no character of
the last line has several bytes.  In general the reach falls short of the end
of the line by the bytes that the line has more than characters. -/
theorem parse_external_covers_within_reach {language : String}
    {commentTypes nodeTypes : List String} {parser : String → Option RawNode} {text : String}
    {root : RawNode} (hparser : parser text = some root) (hsound : root.label.hasError = false)
    (hplaced : ∀ r ∈ preorderList root.children,
      r.Placed text ∧ r.label.endByte ≤ (bytes text).length) :
    ∃ tree, (external language commentTypes nodeTypes parser).parse text = .ok tree ∧
      (∀ n ∈ Node.preorderList tree.children,
        toLex (tree.span.startLine, tree.span.startCol) ≤ toLex (n.span.startLine, n.span.startCol)) ∧
      List.Forall₂ (fun r n => n.span = r.span ∧
          (tree.span.Covers n.span ↔ r.label.endByte ≤ reach text))
        (preorderList root.children) (Node.preorderList tree.children) ∧
      ((∀ c ∈ lastLine text.toList, c.utf8Size = 1) →
        (∀ r ∈ preorderList root.children,
          r.label.endByte ≤ (encoded (unended text.toList)).length) →
        ∀ n ∈ Node.preorderList tree.children, tree.span.Covers n.span) ∧
      reach text + ((encoded (lastLine text.toList)).length - (lastLine text.toList).length) =
        (encoded (unended text.toList)).length := by
  refine ⟨_, parse_external_of_sound hparser hsound, ?_, ?_, ?_, reach_add_continuing text⟩
  · intro n hn
    obtain ⟨r, -, hrender⟩ := exists_renders_of_mem hn
    rw [hrender.span]
    exact one_le_start r
  · have hrenders := forall₂_renders_convertList ⟨text.toUTF8, commentTypes⟩ root.children
    refine ((List.forall₂_and_left _ _).mpr ⟨hplaced, hrenders⟩).imp fun r n h => ?_
    obtain ⟨⟨hpoints, hend⟩, hrender⟩ := h
    have hspan : n.span = r.span := hrender.span
    rw [hspan]
    exact ⟨rfl, covers_iff_of_placed hpoints hend⟩
  · intro hascii hends n hn
    obtain ⟨r, hr, hrender⟩ := exists_renders_of_mem hn
    have hspan : n.span = r.span := hrender.span
    obtain ⟨hpoints, hend⟩ := hplaced r hr
    rw [hspan]
    exact (covers_iff_of_placed hpoints hend).mpr ((reach_eq_iff text).mpr hascii ▸ hends r hr)

/-! ### A comment of a few bytes more than characters -/

/-- A comment on one line, which its line feed ends. -/
def commentText : String := "// 😀\n"

/-- The tree of the text. -/
def commentTree : RawNode :=
  ⟨⟨"program", none, 0, 8, ⟨0, 0⟩, ⟨1, 0⟩, false, false, false⟩,
    [⟨⟨"comment", none, 0, 7, ⟨0, 0⟩, ⟨0, 7⟩, false, false, false⟩, []⟩]⟩

theorem placed_commentTree : ∀ r ∈ commentTree.preorder,
    r.Placed commentText ∧ r.label.endByte ≤ (bytes commentText).length := by
  decide +kernel

theorem parse_external_covers_within_reach_comment :
    (∀ r ∈ preorderList commentTree.children,
      r.Placed commentText ∧ r.label.endByte ≤ (bytes commentText).length) ∧
    ∃ tree comment, (external "sample" ["comment"] [] fun _ => some commentTree).parse commentText =
        .ok tree ∧ Node.preorderList tree.children = [comment] ∧ ¬ tree.span.Covers comment.span := by
  have hplaced := fun r hr => placed_commentTree r (List.mem_cons_of_mem _ hr)
  obtain ⟨tree, htree, -, hnodes, -, -⟩ := @parse_external_covers_within_reach "sample" ["comment"]
    [] (fun _ => some commentTree) commentText commentTree rfl rfl hplaced
  obtain ⟨comment, rest, ⟨-, hcovers⟩, hrest, hnodes⟩ := List.forall₂_cons_left_iff.mp hnodes
  rw [List.forall₂_nil_left_iff.mp hrest] at hnodes
  have hreach : ¬ 7 ≤ reach commentText := by decide +kernel
  exact ⟨hplaced, tree, comment, htree, hnodes, fun h => hreach (hcovers.mp h)⟩

/-- The span of a root may end before that of a node below it. -/
theorem root_ends_before_comment :
    ¬ ∀ (language : String) (commentTypes nodeTypes : List String) (parser : String → Option RawNode)
      (text : String) (root : RawNode), parser text = some root → root.label.hasError = false →
      (∀ r ∈ root.preorder, r.Placed text ∧ r.label.endByte ≤ (bytes text).length) →
      ∀ tree, (external language commentTypes nodeTypes parser).parse text = .ok tree →
        ∀ n ∈ Node.preorderList tree.children, tree.span.Covers n.span := by
  intro h
  let parser : String → Option RawNode := fun _ => some commentTree
  have hparser : parser commentText = some commentTree := rfl
  have hcovers := h "sample" ["comment"] [] parser commentText commentTree hparser rfl
    placed_commentTree _ (parse_external_of_sound hparser rfl)
  have hcomment : (textSpan commentText).Covers ⟨1, 1, 1, 8⟩ := hcovers _ List.mem_cons_self
  exact absurd hcomment (by decide +kernel)

end Grammar
end SourceMetrics
