/-
# `Lines` — a text by lines

A line ends with a line feed, and a carriage return right before that
belongs to the end as well.  What follows the last line feed is a line only
if there is something.
-/
namespace SourceMetrics.Text

/-- A line from its characters in reverse, once its line feed was read. -/
def endedLine : List Char → List Char
  | '\r' :: reversed => reversed.reverse
  | reversed => reversed.reverse

/-- The lines of a text, given the reverse of what was read of the first. -/
def linesFrom (reversed : List Char) : List Char → List (List Char)
  | [] => if reversed.isEmpty then [] else [reversed.reverse]
  | c :: rest =>
    if c = '\n' then endedLine reversed :: linesFrom [] rest
    else linesFrom (c :: reversed) rest

/-- The lines of a text, without what ends them. -/
def lines (text : String) : List (List Char) := linesFrom [] text.toList

end SourceMetrics.Text
