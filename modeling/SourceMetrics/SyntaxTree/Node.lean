/-
# `Node` — the syntax tree the scanner reads

A grammar hands its parse over as one immutable tree of typed nodes.  A
leaf carries its text as a token, marked as code or comment; a node may
also carry a token and children at once, and every reader has to expect
that.

`tokens` and `nodeCount` keep their own stack of pending subtrees, so that
operator chains of any depth are read within bounded call depth.
`leaves` and `size` say the same by recursion on the tree.
-/
import SourceMetrics.SyntaxTree.Span

namespace SourceMetrics

/-- Whether a token is code or comment. -/
inductive TokenKind where
  | code
  | comment
deriving DecidableEq, Repr

/-- The text of a leaf. -/
structure Token where
  text : String
  kind : TokenKind
deriving DecidableEq, Repr

namespace Token

def isComment (t : Token) : Bool := t.kind = .comment

end Token

/-- A node of a syntax tree.  `field` names the role the node has in its
parent. -/
structure Node where
  kind : String
  span : Span
  field : Option String
  token : Option Token
  children : List Node
deriving Repr, Inhabited

namespace Node

def startLine (n : Node) : Nat := n.span.startLine

/-- An interior node without a role. -/
def branch (kind : String) (span : Span) (children : List Node) : Node :=
  ⟨kind, span, none, none, children⟩

/-- The first child in the given role. -/
def childByField (n : Node) (field : String) : Option Node :=
  n.children.find? (fun c => c.field == some field)

/-- The first child of the given kind. -/
def childOfKind (n : Node) (kind : String) : Option Node :=
  n.children.find? (fun c => c.kind == kind)

/-- The text of the node, where it is a leaf. -/
def tokenText (n : Node) : Option String := n.token.map Token.text

/-- The node `path` leads to, by child positions from the root. -/
def descend? (n : Node) : List Nat → Option Node
  | [] => some n
  | i :: path => n.children[i]?.bind (·.descend? path)

/-! ## Recursion on the tree -/

mutual
/-- How many nodes the tree has. -/
def size : Node → Nat
  | ⟨_, _, _, _, children⟩ => 1 + sizeList children

/-- How many nodes a list of trees has. -/
def sizeList : List Node → Nat
  | [] => 0
  | n :: ns => n.size + sizeList ns
end

mutual
/-- The nodes of the tree, each before its children. -/
def preorder : Node → List Node
  | ⟨kind, span, field, token, children⟩ =>
    ⟨kind, span, field, token, children⟩ :: preorderList children

/-- The nodes of a list of trees, each before its children. -/
def preorderList : List Node → List Node
  | [] => []
  | n :: ns => n.preorder ++ preorderList ns
end

mutual
/-- The nodes of the tree with their depths, each before its children. -/
def outline (depth : Nat) : Node → List (Nat × Node)
  | ⟨kind, span, field, token, children⟩ =>
    (depth, ⟨kind, span, field, token, children⟩) :: outlineList (depth + 1) children

/-- The nodes of a list of trees with their depths. -/
def outlineList (depth : Nat) : List Node → List (Nat × Node)
  | [] => []
  | n :: ns => n.outline depth ++ outlineList depth ns
end

/-- The nodes that carry a token, in source order. -/
def leaves (n : Node) : List Node := n.preorder.filter (·.token.isSome)

theorem size_eq (n : Node) : n.size = 1 + sizeList n.children := by
  cases n; rfl

@[simp] theorem sizeList_append (ms ns : List Node) :
    sizeList (ms ++ ns) = sizeList ms + sizeList ns := by
  induction ms with
  | nil => simp [sizeList]
  | cons m ms ih => simp [sizeList, ih]; omega

@[simp] theorem sizeList_reverseAux (ms ns : List Node) :
    sizeList (ms.reverseAux ns) = sizeList ms + sizeList ns := by
  induction ms generalizing ns with
  | nil => simp [sizeList, List.reverseAux]
  | cons m ms ih => simp only [List.reverseAux, ih, sizeList]; omega

/-! ## The same with a stack of pending subtrees -/

/-- Takes subtrees off `stack`, the next one first, and adds each node that
carries a token to `found`, the latest first. -/
def tokensLoop (stack : List Node) (found : List Node) : List Node :=
  match stack with
  | [] => found.reverse
  | n :: rest =>
    tokensLoop (n.children ++ rest) (if n.token.isSome then n :: found else found)
termination_by sizeList stack
decreasing_by simp only [sizeList, sizeList_append, size_eq n]; omega

/-- Takes subtrees off `stack`, in whatever order, and counts their nodes. -/
def nodeCountLoop (stack : List Node) (count : Nat) : Nat :=
  match stack with
  | [] => count
  | n :: rest => nodeCountLoop (n.children.reverseAux rest) (count + 1)
termination_by sizeList stack
decreasing_by simp only [sizeList, sizeList_reverseAux, size_eq n]; omega

/-- The nodes that carry a token, in source order. -/
def tokens (n : Node) : List Node := tokensLoop [n] []

/-- How many nodes the tree has. -/
def nodeCount (n : Node) : Nat := nodeCountLoop [n] 0

/-! ## Equality -/

mutual
/-- Whether two trees agree in every node. -/
def same : Node → Node → Bool
  | ⟨k, s, f, t, cs⟩, ⟨k', s', f', t', cs'⟩ =>
    k == k' && s == s' && f == f' && t == t' && sameList cs cs'

/-- Whether two lists of trees agree in every node. -/
def sameList : List Node → List Node → Bool
  | [], [] => true
  | n :: ns, m :: ms => n.same m && sameList ns ms
  | _, _ => false
end

end Node
end SourceMetrics
