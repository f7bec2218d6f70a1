/-
# `Walk` — a pass over a syntax tree

A pass does something when it enters a node and something when it leaves
it; what it did on entry is handed to the exit as a flag.  `Node.walk` runs
a pass by recursion on the tree:

    enter n;  walk each child from left to right;  leave n

`Node.walkLoop` runs the same pass with a stack of its own, so that the
depth of a tree is bounded by memory and not by the call stack.
-/
import SourceMetrics.SyntaxTree.Node

namespace SourceMetrics

/-- What a pass over a tree does.  `enter` is given the nodes above, the
nearest first; the flag it answers with is handed to `leave`. -/
structure Pass (ε S : Type) where
  enter : List Node → Node → S → Except ε (S × Bool)
  leave : Node → Bool → S → Except ε S

namespace Node

variable {ε S : Type}

/-! ## By recursion -/

mutual
/-- Runs a pass over a tree that lies below the given nodes. -/
def walk (pass : Pass ε S) (above : List Node) (n : Node) (s : S) : Except ε S :=
  match n with
  | ⟨kind, span, field, token, children⟩ =>
    match pass.enter above ⟨kind, span, field, token, children⟩ s with
    | .error e => .error e
    | .ok (s, flag) =>
      match walkList pass (⟨kind, span, field, token, children⟩ :: above) children s with
      | .error e => .error e
      | .ok s => pass.leave ⟨kind, span, field, token, children⟩ flag s

/-- Runs a pass over trees side by side, from left to right. -/
def walkList (pass : Pass ε S) (above : List Node) (ns : List Node) (s : S) : Except ε S :=
  match ns with
  | [] => .ok s
  | n :: rest =>
    match n.walk pass above s with
    | .error e => .error e
    | .ok s => walkList pass above rest s
end

/-! ## With a stack -/

/-- A node that was entered and not yet left. -/
structure Frame where
  node : Node
  /-- The nodes above, the nearest first. -/
  above : List Node
  /-- The children still to be entered. -/
  pending : List Node
  flag : Bool

/-- How many steps the frames of a stack still need at most. -/
def framesSize : List Frame → Nat
  | [] => 0
  | f :: rest => 1 + 2 * sizeList f.pending + framesSize rest

/-- Goes on with a pass from a stack of frames, the innermost first. -/
def walkLoop (pass : Pass ε S) (frames : List Frame) (s : S) : Except ε S :=
  match frames with
  | [] => .ok s
  | ⟨node, _, [], flag⟩ :: rest =>
    match pass.leave node flag s with
    | .error e => .error e
    | .ok s => walkLoop pass rest s
  | ⟨node, above, child :: pending, flag⟩ :: rest =>
    match pass.enter (node :: above) child s with
    | .error e => .error e
    | .ok (s, opened) =>
      walkLoop pass
        (⟨child, node :: above, child.children, opened⟩ :: ⟨node, above, pending, flag⟩ :: rest) s
termination_by framesSize frames
decreasing_by
  · simp only [framesSize]; omega
  · simp only [framesSize, sizeList, size_eq child]; omega

/-- Runs a pass over a whole tree with a stack. -/
def walkStack (pass : Pass ε S) (root : Node) (s : S) : Except ε S :=
  match pass.enter [] root s with
  | .error e => .error e
  | .ok (s, flag) => walkLoop pass [⟨root, [], root.children, flag⟩] s

end Node
end SourceMetrics
