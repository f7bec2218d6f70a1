/-
# Matching a pattern against a path

A pattern matches a path as a whole, byte by byte.  Each token leads from
the places that the tokens before it can reach to those it can reach
itself; the pattern matches if it reaches the end.  A character that takes
several bytes in UTF-8 counts in a class as those bytes.

    path        a   /   b   /   c
    start     x   .   .   .   .   .
    *         x   x   x   x   x   x
    */        .   .   x   .   x   .
-/
import SourceMetrics.Glob.Pattern

namespace SourceMetrics.Glob

/-! ## Places -/

/-- For every place in a path, from its start to its end, whether it can be
reached. -/
abbrev Reach := List Bool

namespace Reach

/-- Only the start of a path. -/
def start (path : List UInt8) : Reach := true :: path.map fun _ => false

/-- No place of a path. -/
def nowhere (path : List UInt8) : Reach := false :: path.map fun _ => false

/-- What one or the other reaches. -/
def either (a b : Reach) : Reach := List.zipWith (· || ·) a b

/-- The places behind one byte that passes a test. -/
def behind (path : List UInt8) (test : UInt8 → Bool) (reach : Reach) : Reach :=
  false :: List.zipWith (fun b here => here && test b) path reach

/-- The places from the first one on that can be reached, or from the start
where that has been `passed`. -/
def onwardsFrom (passed : Bool) : Reach → Reach
  | [] => []
  | here :: rest => (passed || here) :: onwardsFrom (passed || here) rest

/-- The places themselves and all behind them. -/
def onwards (reach : Reach) : Reach := onwardsFrom false reach

/-- The places right behind a slash. -/
def behindSlash (path : List UInt8) (reach : Reach) : Reach := reach.behind path (· = 0x2f)

/-- Whether the end of the path can be reached. -/
def atEnd (reach : Reach) : Bool := reach.getLast?.getD false

end Reach

/-! ## Classes -/

/-- Whether a byte is one of those a range of a class stands for. -/
def rangeHas (low high : Char) (b : UInt8) : Bool :=
  let lowBytes := String.utf8EncodeChar low
  if low = high then lowBytes.contains b
  else
    let highBytes := String.utf8EncodeChar high
    lowBytes.dropLast.contains b || highBytes.tail.contains b ||
      (lowBytes.getLast?.getD 0 ≤ b && b ≤ highBytes.head?.getD 0)

/-- Whether a byte is in a class. -/
def classHas (negated : Bool) (ranges : List (Char × Char)) (b : UInt8) : Bool :=
  ranges.any (fun (low, high) => rangeHas low high b) != negated

/-! ## Tokens -/

mutual
/-- Whether a token can match nothing because it holds no other token. -/
def Token.isVoid : Token → Bool
  | .alternatives branches => allVoid branches
  | _ => false

/-- Whether every branch is void. -/
def allVoid : List (List Token) → Bool
  | [] => true
  | branch :: rest => branchIsVoid branch && allVoid rest

/-- Whether every token of a branch is void. -/
def branchIsVoid : List Token → Bool
  | [] => true
  | t :: rest => t.isVoid && branchIsVoid rest
end

mutual
/-- The places a token leads to. -/
def Token.after (path : List UInt8) (reach : Reach) : Token → Reach
  | .literal c => (String.utf8EncodeChar c).foldl (fun reach b => reach.behind path (· = b)) reach
  | .any => reach.behind path fun _ => true
  | .star => reach.onwards
  | .componentsBefore => reach.either (reach.onwards.behindSlash path)
  | .componentsAfter => (reach.behindSlash path).onwards
  | .componentsBetween =>
    (reach.behindSlash path).either ((reach.behindSlash path).onwards.behindSlash path)
  | .cls negated ranges => reach.behind path (classHas negated ranges)
  | .alternatives branches => if allVoid branches then reach else afterBranches path reach branches

/-- The places one of several branches leads to; a void one counts for
nothing beside others. -/
def afterBranches (path : List UInt8) (reach : Reach) : List (List Token) → Reach
  | [] => .nowhere path
  | branch :: rest =>
    (if branchIsVoid branch then .nowhere path else afterAll path reach branch).either
      (afterBranches path reach rest)

/-- The places all tokens of a list lead to. -/
def afterAll (path : List UInt8) (reach : Reach) : List Token → Reach
  | [] => reach
  | t :: rest => afterAll path (t.after path reach) rest
end

/-- Whether the tokens match a path. -/
def accepts (tokens : List Token) (path : String) : Bool :=
  match tokens with
  | [.componentsBefore] => true
  | tokens =>
    let bytes := path.toUTF8.toList
    (afterAll bytes (.start bytes) tokens).atEnd

/-- Whether a pattern can be read and matches a path. -/
def matchesPath (pattern path : String) : Bool :=
  match read pattern with
  | .ok tokens => accepts tokens path
  | .error _ => false

end SourceMetrics.Glob
