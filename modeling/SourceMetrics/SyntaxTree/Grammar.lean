/-
# `Grammar` — text in, syntax tree out

The scanner never looks at how a language is parsed.  A grammar names its
language, turns a text into a tree or says why it cannot, and may list the
kinds of node it knows, so that a subscription to any other can be pointed
out.
-/
import SourceMetrics.Scan.Error
import SourceMetrics.SyntaxTree.Node

namespace SourceMetrics

/-- A parser for one language. -/
structure Grammar where
  language : String
  parse : String → Except ParseError Node
  /-- The kinds of node there are, where the grammar can tell. -/
  nodeTypes : Option (List String)

namespace Grammar

/-- A grammar that knows a few texts by heart, each with its tree or its
error.  The first entry for a text counts. -/
def ofTable (language : String) (table : List (String × Except ParseError Node))
    (nodeTypes : Option (List String)) : Grammar where
  language := language
  parse text := (table.lookup text).getD (.error ⟨1, 1, .reported "unknown text"⟩)
  nodeTypes := nodeTypes

end Grammar
end SourceMetrics
