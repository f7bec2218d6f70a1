/-
# The pass with a stack is the pass by recursion

`Node.walkLoop` keeps one frame for each node that was entered and not yet
left; a frame holds the children of its node that are still to come.  What
a stack of frames stands for is the rest of a recursive walk: the remaining
children of the innermost node, its exit, and then the frames around it.

    f₁ :: f₂ :: …   ↦   walk f₁.pending;  leave f₁.node;  walk f₂.pending;  …

`resume` says this as a recursion on the frames.  That the loop computes it
from every stack (`walkLoop_eq_resume`) is the invariant of the loop; the
stack a walk begins with is the case of one frame.
-/
import SourceMetrics.SyntaxTree.Walk

namespace SourceMetrics.Node

variable {ε S : Type}

/-! ## The recursion, one level at a time -/

theorem walk_eq (pass : Pass ε S) (above : List Node) (n : Node) (s : S) :
    n.walk pass above s =
      match pass.enter above n s with
      | .error e => .error e
      | .ok (s, flag) =>
        match walkList pass (n :: above) n.children s with
        | .error e => .error e
        | .ok s => pass.leave n flag s := by
  cases n
  rfl

theorem walkList_nil (pass : Pass ε S) (above : List Node) (s : S) :
    walkList pass above [] s = .ok s := rfl

theorem walkList_cons (pass : Pass ε S) (above : List Node) (n : Node) (rest : List Node)
    (s : S) :
    walkList pass above (n :: rest) s =
      match n.walk pass above s with
      | .error e => .error e
      | .ok s => walkList pass above rest s := rfl

/-! ## What a stack of frames stands for -/

/-- What is left to do in a recursive walk, given the frames of the nodes
that were entered and not yet left. -/
def resume (pass : Pass ε S) : List Frame → S → Except ε S
  | [], s => .ok s
  | f :: rest, s =>
    match walkList pass (f.node :: f.above) f.pending s with
    | .error e => .error e
    | .ok s =>
      match pass.leave f.node f.flag s with
      | .error e => .error e
      | .ok s => resume pass rest s

/-- To go into the next child of the innermost node does not change what is
left to do. -/
theorem resume_descend (pass : Pass ε S) (node child : Node) (above pending : List Node)
    (flag : Bool) (rest : List Frame) (s : S) :
    resume pass (⟨node, above, child :: pending, flag⟩ :: rest) s =
      match pass.enter (node :: above) child s with
      | .error e => .error e
      | .ok (s, opened) =>
        resume pass
          (⟨child, node :: above, child.children, opened⟩ :: ⟨node, above, pending, flag⟩ :: rest)
          s := by
  simp only [resume, walkList_cons, walk_eq]
  cases pass.enter (node :: above) child s with
  | error e => rfl
  | ok entered =>
      obtain ⟨s₁, opened⟩ := entered
      cases hw : walkList pass (child :: node :: above) child.children s₁ with
      | error e => simp only [hw]
      | ok s₂ =>
          cases hl : pass.leave child opened s₂ with
          | error e => simp only [hw, hl]
          | ok s₃ => simp only [hw, hl]

/-- The loop does what is left to do, from every stack. -/
theorem walkLoop_eq_resume (pass : Pass ε S) (frames : List Frame) (s : S) :
    walkLoop pass frames s = resume pass frames s := by
  -- The loop shrinks `framesSize`, not the stack: entering a child adds a frame.
  fun_induction walkLoop pass frames s with
  | case1 s => rfl
  | case2 s node above flag rest e hl => simp only [resume, walkList_nil, hl]
  | case3 s node above flag rest s' hl ih =>
      rw [ih]
      simp only [resume, walkList_nil, hl]
  | case4 s node above flag rest child pending e he => rw [resume_descend, he]
  | case5 s node above flag rest child pending s' opened he ih => rw [resume_descend, he, ih]

/-- A pass with a stack and the same pass by recursion come to the same. -/
theorem walkStack_eq_walk (pass : Pass ε S) (root : Node) (s : S) :
    root.walkStack pass s = root.walk pass [] s := by
  rw [walkStack, walk_eq]
  cases pass.enter [] root s with
  | error e => rfl
  | ok entered =>
      obtain ⟨s₁, flag⟩ := entered
      show walkLoop pass [⟨root, [], root.children, flag⟩] s₁ = _
      rw [walkLoop_eq_resume]
      simp only [resume]
      cases walkList pass [root] root.children s₁ with
      | error e => rfl
      | ok s₂ =>
          show (match pass.leave root flag s₂ with
            | .error e => .error e
            | .ok s => .ok s) = pass.leave root flag s₂
          cases pass.leave root flag s₂ with
          | error e => rfl
          | ok s₃ => rfl

end SourceMetrics.Node
