/-
# `Search` — a word within a text
-/
namespace SourceMetrics.Text

/-- Whether `word` stands somewhere in a list of characters. -/
def occursIn (word : List Char) : List Char → Bool
  | [] => word.isEmpty
  | c :: rest => word.isPrefixOf (c :: rest) || occursIn word rest

/-- Whether the text holds the word. -/
def containsWord (text word : String) : Bool := occursIn word.toList text.toList

end SourceMetrics.Text
