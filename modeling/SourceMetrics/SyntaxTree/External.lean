/-
# Grammars with an external parser

An external parser answers every text with a tree, in error or not.  The
grammar refuses a tree in error with the first error in it and converts any
other.
-/
import SourceMetrics.SyntaxTree.Conversion
import SourceMetrics.SyntaxTree.FirstError
import SourceMetrics.SyntaxTree.Grammar

namespace SourceMetrics.Grammar

/-- The syntax tree of a text, from the tree an external parser gives. -/
def treeOf (commentTypes : List String) (text : String) (root : RawNode) :
    Except ParseError Node :=
  if root.label.hasError then .error (root.firstError text.toUTF8)
  else .ok (root.convertStack ⟨text.toUTF8, commentTypes⟩ (RawNode.textSpan text))

/-- The grammar of a language with an external parser. -/
def external (language : String) (commentTypes : List String) (nodeTypes : List String)
    (parser : String → Option RawNode) : Grammar where
  language := language
  parse text :=
    match parser text with
    | none => .error ⟨1, 1, .noTree⟩
    | some root => treeOf commentTypes text root
  nodeTypes := some nodeTypes

theorem parse_external {language : String} {commentTypes nodeTypes : List String}
    {parser : String → Option RawNode} {text : String} {root : RawNode}
    (h : parser text = some root) :
    (external language commentTypes nodeTypes parser).parse text =
      treeOf commentTypes text root := by
  simp only [external, h]

end SourceMetrics.Grammar
