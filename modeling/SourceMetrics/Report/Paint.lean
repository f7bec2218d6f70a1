/-
# Colours of a terminal

A piece of text may be painted with a colour or a weight.  On a terminal
the paint is a control sequence before the text and a reset behind it;
elsewhere it is left out.
-/
namespace SourceMetrics.Report

/-- What a piece of text may be painted with. -/
inductive Paint where
  | title
  | dimmed
  | bold
  | red
  | green
  | yellow
  | blue
deriving DecidableEq, Repr

namespace Paint

/-- The code of a paint in a control sequence. -/
def code : Paint → String
  | title => "1;36"
  | dimmed => "2"
  | bold => "1"
  | red => "31"
  | green => "32"
  | yellow => "33"
  | blue => "34"

/-- The control sequence with a code. -/
def sequence (code : String) : List Char := "\x1b[".toList ++ code.toList ++ ['m']

/-- Ends all paint. -/
def reset : List Char := sequence "0"

/-- Starts a paint again behind each reset within the text, `skip` characters
of which belong to the last reset. -/
def renew (start : List Char) (skip : Nat) : List Char → List Char
  | [] => []
  | c :: rest =>
    match skip with
    | skip + 1 => c :: (if skip = 0 then start ++ renew start 0 rest else renew start skip rest)
    | 0 =>
      if reset.isPrefixOf (c :: rest) then c :: renew start (reset.length - 1) rest
      else c :: renew start 0 rest

end Paint

/-- The text painted, where colours are wanted. -/
def painted (colours : Bool) (paint : Paint) (text : String) : String :=
  if colours then
    let start := Paint.sequence paint.code
    String.ofList (start ++ Paint.renew start 0 text.toList ++ Paint.reset)
  else text

end SourceMetrics.Report
