/-
# The conversion with a cursor is the one by recursion

The loop of the conversion moves a cursor through the tree of the parser and
keeps, beside it, the branches that are open.  Neither knows of the other.
What ties them together is that they are in step: to every step the cursor
has made down from the root belongs one open branch, the latest step to the
innermost.

    cursor      root ─▸ step ─▸ step ─▸ node
    branches    bottom   ▸ …     ▸ top

While they are in step, both together stand for a tree (`resume`): every
branch takes the siblings that lie behind its step.  One move to the next
node keeps the tree (`resume_advance`), and so does the loop, which ends with
the branch of the root alone (`convertLoop_eq_resume`).

The main statement, `convertStack_renders`, says what the tree is, node by
node.
-/
import Mathlib.Data.List.Forall2
import SourceMetrics.SyntaxTree.Conversion

namespace SourceMetrics
namespace RawNode

variable (source : Source)

/-! ## The recursion, one level at a time -/

variable {source} in
theorem convert_eq_leaf {n : RawNode} (h : n.children = []) : n.convert source = leaf source n := by
  obtain ⟨label, children⟩ := n
  obtain rfl : children = [] := h
  rw [convert]

variable {source} in
theorem convert_eq_branch {n : RawNode} (h : n.children ≠ []) :
    n.convert source =
      ⟨n.label.kind, n.span, n.label.field, none, convertList source n.children⟩ := by
  obtain ⟨label, children⟩ := n
  cases children with
  | nil => exact absurd rfl h
  | cons child rest =>
      rw [convert]
      rfl

/-! ## What a cursor and open branches stand for -/

/-- What a branch comes to when it takes further children. -/
def Branch.finish (source : Source) (b : Branch) (pending : List RawNode) : Node :=
  ⟨b.kind, b.span, b.field, none, b.done.reverse ++ convertList source pending⟩

/-- The tree that is left to build, where the children of each open branch up
to its step have been converted. -/
def resume (source : Source) : List RawStep → Branches → Node
  | [], bs => bs.top.build
  | step :: _, ⟨top, []⟩ => top.finish source step.behind
  | step :: above, ⟨top, around :: outer⟩ =>
    resume source above ⟨around.add (top.finish source step.behind), outer⟩

/-- To every step of the cursor belongs one open branch. -/
def InStep (c : RawCursor) (bs : Branches) : Prop := c.above.length = bs.outer.length + 1

theorem finish_nil (b : Branch) : b.finish source [] = b.build := by
  rw [Branch.finish, Branch.build, convertList, List.append_nil]

/-- To convert the next child of a branch does not change what it comes to. -/
theorem finish_cons (b : Branch) (n : RawNode) (pending : List RawNode) :
    b.finish source (n :: pending) = (b.add (n.convert source)).finish source pending := by
  rw [Branch.finish, Branch.finish, convertList, Branch.add, List.reverse_cons, List.append_assoc]
  rfl

/-- A node with children is its branch with all of them. -/
theorem finish_ofNode {n : RawNode} (h : n.children ≠ []) :
    (Branch.ofNode n).finish source n.children = n.convert source := by
  rw [convert_eq_branch h]
  rfl

/-- The next child of the innermost branch may be converted first. -/
theorem resume_sibling (label : RawLabel) (before before' : List RawNode) (n : RawNode)
    (behind : List RawNode) (above : List RawStep) (bs : Branches) :
    resume source (⟨label, before, n :: behind⟩ :: above) bs =
      resume source (⟨label, before', behind⟩ :: above) (bs.add (n.convert source)) := by
  obtain ⟨top, _ | ⟨around, outer⟩⟩ := bs
  · exact finish_cons source top n behind
  · simp only [resume, Branches.add, finish_cons]

/-! ## One move -/

/-- To go up from a last sibling closes the innermost branch, which nothing is
left for. -/
theorem resume_ascend {c up : RawCursor} {bs : Branches} {around : Branch} {outer : List Branch}
    (hstep : InStep c bs) (hnext : c.nextSibling? = none) (houter : bs.outer = around :: outer)
    (hparent : c.parent? = some up) :
    InStep up ⟨around.add bs.top.build, outer⟩ ∧
      resume source c.above bs = resume source up.above ⟨around.add bs.top.build, outer⟩ := by
  obtain ⟨top, branches⟩ := bs
  obtain rfl : branches = around :: outer := houter
  obtain ⟨node, _ | ⟨⟨label, before, _ | ⟨n, behind⟩⟩, above⟩⟩ := c
  · cases hparent
  · cases hparent
    refine ⟨Nat.succ.inj hstep, ?_⟩
    rw [resume, finish_nil]
  · cases hnext

/-- The move to the next node that is not converted keeps the cursor and the
branches in step, and the tree they stand for. -/
theorem resume_advance {c next : RawCursor} {bs bs' : Branches} (hstep : InStep c bs)
    (h : advance c bs = (some next, bs')) :
    InStep next bs' ∧
      resume source c.above bs = resume source next.above (bs'.add (next.node.convert source)) := by
  fun_induction advance c bs with
  | case1 c bs sibling hnext =>
      obtain ⟨rfl, rfl⟩ : sibling = next ∧ bs = bs' := by
        obtain ⟨hsome, hbs⟩ := Prod.mk.inj h
        exact ⟨Option.some.inj hsome, hbs⟩
      obtain ⟨node, _ | ⟨⟨label, before, _ | ⟨n, behind⟩⟩, above⟩⟩ := c
      · cases hnext
      · cases hnext
      · cases hnext
        exact ⟨hstep, resume_sibling source label before (node :: before) n behind above bs⟩
  | case2 => cases h
  | case3 => cases h
  | case4 c bs hnext around outer houter up hparent ih =>
      obtain ⟨hup, hresume⟩ := resume_ascend source hstep hnext houter hparent
      obtain ⟨hstep', heq⟩ := ih hup h
      exact ⟨hstep', hresume.trans heq⟩

/-- Where there is no further node, the branch of the root alone is left, with
all its children. -/
theorem resume_advance_none {c : RawCursor} {bs bs' : Branches} (hstep : InStep c bs)
    (h : advance c bs = (none, bs')) :
    bs'.outer = [] ∧ resume source c.above bs = bs'.top.build := by
  fun_induction advance c bs with
  | case1 => cases h
  | case2 c bs hnext houter =>
      obtain rfl : bs = bs' := (Prod.mk.inj h).2
      obtain ⟨top, branches⟩ := bs
      obtain rfl : branches = [] := houter
      refine ⟨rfl, ?_⟩
      obtain ⟨node, _ | ⟨⟨label, before, _ | ⟨n, behind⟩⟩, above⟩⟩ := c
      · cases hstep
      · rw [resume, finish_nil]
      · cases hnext
  | case3 c bs hnext around outer houter hparent =>
      -- A cursor in step with two branches has made a step down.
      obtain ⟨node, _ | ⟨step, above⟩⟩ := c
      · cases hstep
      · cases hparent
  | case4 c bs hnext around outer houter up hparent ih =>
      obtain ⟨hup, hresume⟩ := resume_ascend source hstep hnext houter hparent
      obtain ⟨hlast, heq⟩ := ih hup h
      exact ⟨hlast, hresume.trans heq⟩

/-! ## The loop -/

theorem firstChild?_eq_none {c : RawCursor} (h : c.firstChild? = none) : c.node.children = [] := by
  obtain ⟨⟨label, _ | ⟨child, rest⟩⟩, above⟩ := c
  · rfl
  · cases h

/-- To go down to the first child opens the branch of the node, and keeps what
is left to build. -/
theorem resume_descend {c child : RawCursor} (h : c.firstChild? = some child) (bs : Branches) :
    resume source c.above (bs.add (c.node.convert source)) =
      resume source child.above
        ((bs.push (.ofNode c.node)).add (child.node.convert source)) := by
  obtain ⟨⟨label, _ | ⟨first, rest⟩⟩, above⟩ := c
  · cases h
  · cases h
    have hne : (⟨label, first :: rest⟩ : RawNode).children ≠ [] := List.cons_ne_nil first rest
    have hnode : (Branch.ofNode ⟨label, first :: rest⟩).finish source (first :: rest) =
        convert source ⟨label, first :: rest⟩ := finish_ofNode source hne
    simp only [Branches.add, Branches.push, resume, ← finish_cons, ← hnode]

/-- The loop builds what is left to build, and leaves the branch of the root
alone. -/
theorem convertLoop_eq_resume {c : RawCursor} {bs : Branches} (hstep : InStep c bs) :
    (convertLoop source c bs).outer = [] ∧
      (convertLoop source c bs).top.build =
        resume source c.above (bs.add (c.node.convert source)) := by
  fun_induction convertLoop source c bs with
  | case1 c bs child hchild ih =>
      have hstep' : InStep child (bs.push (.ofNode c.node)) := by
        obtain ⟨⟨label, _ | ⟨first, rest⟩⟩, above⟩ := c
        · cases hchild
        · cases hchild
          exact congrArg Nat.succ hstep
      obtain ⟨hlast, hbuild⟩ := ih hstep'
      exact ⟨hlast, hbuild.trans (resume_descend source hchild bs).symm⟩
  | case2 c bs hchild next bs' hnext ih =>
      rw [convert_eq_leaf (firstChild?_eq_none hchild)]
      have hleaf : InStep c (bs.add (leaf source c.node)) := hstep
      obtain ⟨hstep', heq⟩ := resume_advance source hleaf hnext
      obtain ⟨hlast, hbuild⟩ := ih hstep'
      exact ⟨hlast, hbuild.trans heq.symm⟩
  | case3 c bs hchild bs' hnext =>
      rw [convert_eq_leaf (firstChild?_eq_none hchild)]
      have hleaf : InStep c (bs.add (leaf source c.node)) := hstep
      obtain ⟨hlast, heq⟩ := resume_advance_none source hleaf hnext
      exact ⟨hlast, heq.symm⟩

/-- Once a root was walked through, its branch alone is open, and it is the
converted root. -/
theorem convertBelow_eq (rootSpan : Span) (root : RawNode) :
    (convertBelow source rootSpan root).outer = [] ∧
      (convertBelow source rootSpan root).top.build = root.convertRoot source rootSpan := by
  obtain ⟨label, _ | ⟨child, rest⟩⟩ := root
  · exact ⟨rfl, rfl⟩
  · let bottom : Branch := ⟨label.kind, rootSpan, none, []⟩
    have hstep : InStep ⟨child, [⟨label, [], rest⟩]⟩ ⟨bottom, []⟩ := rfl
    obtain ⟨hlast, hbuild⟩ := convertLoop_eq_resume source hstep
    refine ⟨hlast, hbuild.trans ?_⟩
    show (bottom.add (child.convert source)).finish source rest = _
    rw [← finish_cons]
    rfl

theorem convertStack_eq (rootSpan : Span) (root : RawNode) :
    root.convertStack source rootSpan = root.convertRoot source rootSpan := by
  obtain ⟨hlast, hbuild⟩ := convertBelow_eq source rootSpan root
  rw [convertStack]
  show (convertBelow source rootSpan root).top.close (convertBelow source rootSpan root).outer = _
  rw [hlast]
  exact hbuild

/-! ## Node by node -/

/-- What the node of a syntax tree has from the node of the parser's tree that
it stands for. -/
structure Renders (source : Source) (r : RawNode) (n : Node) : Prop where
  kind : n.kind = r.label.kind
  field : n.field = r.label.field
  span : n.span = ⟨r.label.start.row + 1, r.label.start.column + 1, r.label.stop.row + 1,
    r.label.stop.column + 1⟩
  children : n.children.length = r.children.length
  token : n.token =
    if r.children = [] then
      some ⟨r.text source.bytes, if r.label.kind ∈ source.commentTypes then .comment else .code⟩
    else none

theorem length_convertList (ns : List RawNode) : (convertList source ns).length = ns.length := by
  induction ns with
  | nil => rfl
  | cons n ns ih => rw [convertList, List.length_cons, List.length_cons, ih]

theorem renders_leaf (label : RawLabel) :
    Renders source ⟨label, []⟩ (leaf source ⟨label, []⟩) := by
  refine ⟨rfl, rfl, rfl, rfl, ?_⟩
  simp only [leaf, List.contains_iff_mem, if_true]

mutual
/-- A converted tree has one node for each node of the parser's tree, in the
same order. -/
theorem forall₂_renders_convert :
    ∀ r : RawNode, List.Forall₂ (Renders source) r.preorder (r.convert source).preorder
  | ⟨label, []⟩ => by
      rw [convert_eq_leaf rfl]
      exact .cons (renders_leaf source label) .nil
  | ⟨label, child :: rest⟩ => by
      rw [convert_eq_branch (List.cons_ne_nil child rest)]
      refine .cons ⟨rfl, rfl, rfl, length_convertList source _, rfl⟩ ?_
      exact forall₂_renders_convertList (child :: rest)
theorem forall₂_renders_convertList :
    ∀ rs : List RawNode,
      List.Forall₂ (Renders source) (preorderList rs) (Node.preorderList (convertList source rs))
  | [] => .nil
  | r :: rs => List.rel_append (forall₂_renders_convert r)
      (forall₂_renders_convertList rs)
end

variable {source} in
/-- Every node below a converted root stands for one below the parser's. -/
theorem exists_renders_of_mem {rs : List RawNode} {n : Node}
    (hn : n ∈ Node.preorderList (convertList source rs)) :
    ∃ r ∈ preorderList rs, Renders source r n := by
  obtain ⟨i, hi, rfl⟩ := List.mem_iff_getElem.mp hn
  obtain ⟨hlength, hrenders⟩ := List.forall₂_iff_get.mp (forall₂_renders_convertList source rs)
  have hi' : i < (preorderList rs).length := hlength ▸ hi
  exact ⟨_, List.getElem_mem hi', hrenders i hi' hi⟩

variable {source} in
/-- A node that stands for a leaf is the leaf. -/
theorem Renders.eq_leaf {r : RawNode} {n : Node} (h : Renders source r n) (hleaf : r.children = []) :
    n = leaf source r := by
  obtain ⟨hkind, hfield, hspan, hchildren, htoken⟩ := h
  obtain ⟨kind, span, field, token, children⟩ := n
  rw [hleaf, List.length_nil, List.length_eq_zero_iff] at hchildren
  rw [if_pos hleaf] at htoken
  cases hkind
  cases hfield
  cases hspan
  cases hchildren
  cases htoken
  simp only [leaf, List.contains_iff_mem]
  rfl

end RawNode
end SourceMetrics
