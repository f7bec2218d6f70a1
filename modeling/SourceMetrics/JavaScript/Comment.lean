/-
# Comments of JavaScript

A comment runs from `//` to the end of its line, from `/*` to `*/` or, as
in HTML, from `<!--` to `-->`.  A closing delimiter is looked for in what
follows the opening one, so the two never overlap: of `/*/` the slash is
left.
-/
import SourceMetrics.Visitor.Comments

namespace SourceMetrics.JavaScript

/-- The text without the closing delimiter, if it ends with it. -/
def dropClosing (closing text : List Char) : List Char :=
  (closing.isSuffixOf? text).getD text

/-- The comment without its delimiters. -/
def stripChars (comment : List Char) : List Char :=
  match "//".toList.isPrefixOf? comment with
  | some rest => rest
  | none =>
    match "/*".toList.isPrefixOf? comment with
    | some rest => dropClosing "*/".toList rest
    | none =>
      match "<!--".toList.isPrefixOf? comment with
      | some rest => dropClosing "-->".toList rest
      | none => comment

/-- The comment without its delimiters. -/
def stripDelimiters (comment : String) : String := String.ofList (stripChars comment.toList)

/-- How JavaScript writes comments. -/
def commentAnalyser : CommentAnalyser := ⟨stripDelimiters, CommentAnalyser.hasNoContent⟩

end SourceMetrics.JavaScript
