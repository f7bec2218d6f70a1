/-
# `Visitor.comments` — comments with and without content

Each comment token adds one either to the comments with content or to the
blank ones.  With `ignoreHeader`, the comments before the first code token
of a file are passed over.  With `noSonar`, a comment that holds the marker
has its line recorded on the file, wherever it stands, and counts as blank.
-/
import SourceMetrics.Text.LetterOrDigit
import SourceMetrics.Text.Search
import SourceMetrics.Visitor.Basic

namespace SourceMetrics

/-- How a language writes comments. -/
structure CommentAnalyser where
  /-- The comment without its delimiters. -/
  strip : String → String
  /-- Whether what is left has no content. -/
  isBlank : String → Bool

namespace CommentAnalyser

/-- A text without any letter or digit has no content. -/
def hasNoContent (text : String) : Bool := !text.toList.any Text.isLetterOrDigit

/-- Takes every comment as it stands. -/
def identity : CommentAnalyser := ⟨id, hasNoContent⟩

end CommentAnalyser

/-- What the visitor of comments does beyond counting. -/
structure CommentOptions where
  commentMetric : Metric
  blankMetric : Metric
  ignoreHeader : Bool
  noSonar : Bool
deriving DecidableEq, Repr

namespace CommentOptions

/-- The standard metrics, nothing ignored and no marker looked for. -/
def standard : CommentOptions :=
  ⟨Metric.commentLines, Metric.commentBlankLines, false, false⟩

end CommentOptions

namespace Visitor

/-- The marker of a line where findings are to be ignored. -/
def noSonarMarker : String := "NOSONAR"

/-- Whether a comment is looked at for the marker and holds it. -/
def isMarked (options : CommentOptions) (t : Token) : Bool :=
  options.noSonar && Text.containsWord t.text noSonarMarker

/-- The metric a comment that counts is counted under. -/
def commentMetric (analyser : CommentAnalyser) (options : CommentOptions) (t : Token) : Metric :=
  if isMarked options t || analyser.isBlank (analyser.strip t.text) then options.blankMetric
  else options.commentMetric

/-- The writes for one comment, given whether code came before it. -/
def commentWrites {α : Type} [Amount α] (analyser : CommentAnalyser) (options : CommentOptions)
    (seenCode : Bool) (n : Node) (t : Token) : List (Write α) :=
  (if isMarked options t then [.markNoSonar n.startLine] else []) ++
    (if options.ignoreHeader && !seenCode then []
      else [.increment (commentMetric analyser options t)])

/-- Counts the comments of a file. -/
def comments {α : Type} [Amount α] (analyser : CommentAnalyser) (options : CommentOptions) :
    Visitor FileMemory α :=
  { silent "comments" [options.commentMetric, options.blankMetric] with
    observesTokens := true
    visitToken := fun memory n t _ =>
      if t.isComment then (memory, commentWrites analyser options memory.seenCode n t)
      else ({ memory with seenCode := true }, []) }

end Visitor
end SourceMetrics
