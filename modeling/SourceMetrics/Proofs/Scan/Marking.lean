/-
# Which nodes start a unit, and the shape of the units

The units of a file follow from its syntax tree and the extractors alone;
no visitor has a say in them.  This module says so without a stack.

A `UnitShape` is a tree of units without their values.  `Node.mark` goes
through a syntax tree by recursion and notes on every node the unit that is
opened for it, if any.  Its answer for a node rests on two things: the
nodes above, and the shape so far of the unit that is open there.

    node ── node*           the node with a star starts a unit
     │       └── node*
     └── node ── node*

`Marked.contract` keeps of a marked tree the nodes that start a unit, each
below the nearest one above it.  What the marks say of a node is stated by
itself in `Marked.Right`: a node is claimed as the earliest extractor that
claims it says, with its key freed (`Right.exists_extractor`), or every
extractor declines it (`Right.unit_eq_none_iff`).
-/
import SourceMetrics.Scan.Traversal

namespace SourceMetrics

/-! ## Shapes -/

/-- A unit with all units below it, without their values. -/
structure UnitShape where
  unit : UnitSpec
  children : List UnitShape

namespace UnitShape

mutual
/-- The units of a shape, each before those below it. -/
def preorder : UnitShape → List UnitSpec
  | ⟨unit, children⟩ => unit :: preorderList children

/-- The units of shapes side by side, each before those below it. -/
def preorderList : List UnitShape → List UnitSpec
  | [] => []
  | u :: us => u.preorder ++ preorderList us
end

/-- The shape with more units right below its own, after those it has. -/
def add (u : UnitShape) (more : List UnitShape) : UnitShape := ⟨u.unit, u.children ++ more⟩

/-- The keys of the units right below. -/
def keysBelow (u : UnitShape) : List String := u.children.map (·.unit.key)

/-- The innermost unit behind a node at which a unit is opened or not. -/
def inside (around : UnitShape) : Option UnitSpec → UnitShape
  | some unit => ⟨unit, []⟩
  | none => around

theorem preorderList_append (us vs : List UnitShape) :
    preorderList (us ++ vs) = preorderList us ++ preorderList vs := by
  induction us with
  | nil => rfl
  | cons u us ih => simp only [List.cons_append, preorderList, ih, List.append_assoc]

@[simp] theorem add_nil (u : UnitShape) : u.add [] = u := by
  cases u
  simp only [add, List.append_nil]

@[simp] theorem add_add (u : UnitShape) (us vs : List UnitShape) :
    (u.add us).add vs = u.add (us ++ vs) := by
  simp only [add, List.append_assoc]

theorem inside_unit (around : UnitShape) (unit : Option UnitSpec) :
    (around.inside unit).unit = unit.getD around.unit := by
  cases unit <;> rfl

end UnitShape

namespace UnitTree

variable {α : Type}

/-- What a finished unit was opened as. -/
def spec (t : UnitTree α) : UnitSpec := ⟨t.kind, t.key, t.startLine⟩

mutual
/-- The shape of a finished unit. -/
def shape : UnitTree α → UnitShape
  | ⟨kind, key, line, _, _, _, children⟩ => ⟨⟨kind, key, line⟩, shapeList children⟩

/-- The shapes of finished units side by side. -/
def shapeList : List (UnitTree α) → List UnitShape
  | [] => []
  | t :: ts => t.shape :: shapeList ts
end

theorem shapeList_eq_map (ts : List (UnitTree α)) : shapeList ts = ts.map shape := by
  induction ts with
  | nil => rfl
  | cons t ts ih => simp only [shapeList, ih, List.map_cons]

theorem shape_unit (t : UnitTree α) : t.shape.unit = t.spec := by
  cases t; rfl

theorem map_key_shapeList (ts : List (UnitTree α)) :
    (shapeList ts).map (·.unit.key) = ts.map (·.key) := by
  simp only [shapeList_eq_map, List.map_map, Function.comp_def, shape_unit, spec]

mutual
/-- The units of a shape are those of the tree, in the same order. -/
theorem preorder_shape : ∀ t : UnitTree α, t.shape.preorder = t.preorder.map spec
  | ⟨kind, key, line, own, measures, lines, children⟩ => by
      simp only [shape, UnitShape.preorder, preorder, List.map_cons, spec,
        preorderList_shapeList children]
theorem preorderList_shapeList :
    ∀ ts : List (UnitTree α), UnitShape.preorderList (shapeList ts) = (preorderList ts).map spec
  | [] => rfl
  | t :: ts => by
      simp only [shapeList, UnitShape.preorderList, preorderList, List.map_append,
        preorder_shape t, preorderList_shapeList ts]
end

mutual
/-- A shape has as many units as the tree. -/
theorem length_preorder_shape : ∀ t : UnitTree α, t.shape.preorder.length = t.unitCount
  | ⟨kind, key, line, own, measures, lines, children⟩ => by
      rw [shape, UnitShape.preorder, List.length_cons, length_preorderList_shapeList children,
        unitCount, Nat.add_comm]
theorem length_preorderList_shapeList :
    ∀ ts : List (UnitTree α), (UnitShape.preorderList (shapeList ts)).length = unitCountList ts
  | [] => rfl
  | t :: ts => by
      rw [shapeList, UnitShape.preorderList, List.length_append, length_preorder_shape t,
        length_preorderList_shapeList ts, unitCountList]
end

end UnitTree

/-! ## Marks -/

/-- A syntax tree with, on each node, the unit that is opened for it. -/
structure Marked where
  node : Node
  unit : Option UnitSpec
  children : List Marked

/-- The unit that is opened for a node, given the nodes above it, the
nearest first, and the shape so far of the innermost open unit.  Its key is
the wanted one as far as no unit before it has it. -/
def claimedUnit (extractors : List UnitExtractor) (above : List Node) (around : UnitShape)
    (n : Node) : Option UnitSpec :=
  (UnitExtractor.firstClaim extractors n ⟨above, around.unit.kind, around.unit.key⟩).map
    fun spec => { spec with key := OpenUnit.freeKey around.keysBelow spec.key n.span.startCol }

namespace Marked

mutual
/-- The shapes of the units that a marked tree adds to the unit around it. -/
def contract : Marked → List UnitShape
  | ⟨_, some unit, children⟩ => [⟨unit, contractList children⟩]
  | ⟨_, none, children⟩ => contractList children

/-- The shapes that marked trees side by side add to the unit around them. -/
def contractList : List Marked → List UnitShape
  | [] => []
  | m :: ms => m.contract ++ contractList ms
end

mutual
/-- The marked nodes of a tree, each before its children. -/
def preorder : Marked → List Marked
  | ⟨node, unit, children⟩ => ⟨node, unit, children⟩ :: preorderList children

/-- The marked nodes of trees side by side, each before its children. -/
def preorderList : List Marked → List Marked
  | [] => []
  | m :: ms => m.preorder ++ preorderList ms
end

/-- The marks of a tree are right, given the nodes above it and what the
innermost open unit was opened as: on every node the first extractor that
claims it has its way, and the unit opened there is the innermost one for
the nodes below. -/
inductive Right (extractors : List UnitExtractor) : List Node → UnitSpec → Marked → Prop
  | intro {above : List Node} {around : UnitShape} {n : Node} {children : List Marked} :
      children.map Marked.node = n.children →
      (∀ m ∈ children, Right extractors (n :: above)
        ((claimedUnit extractors above around n).getD around.unit) m) →
      Right extractors above around.unit ⟨n, claimedUnit extractors above around n, children⟩

end Marked

namespace Node

mutual
/-- Marks a tree, given the nodes above it and the shape so far of the
innermost open unit. -/
def mark (extractors : List UnitExtractor) (above : List Node) (around : UnitShape) :
    Node → Marked
  | ⟨kind, span, field, token, children⟩ =>
    let n : Node := ⟨kind, span, field, token, children⟩
    let unit := claimedUnit extractors above around n
    ⟨n, unit, markList extractors (n :: above) (around.inside unit) children⟩

/-- Marks trees side by side: the units of one are there when the next is
come to. -/
def markList (extractors : List UnitExtractor) (above : List Node) (around : UnitShape) :
    List Node → List Marked
  | [] => []
  | n :: rest =>
    n.mark extractors above around ::
      markList extractors above (around.add (n.mark extractors above around).contract) rest
end

variable {extractors : List UnitExtractor}

theorem mark_eq (above : List Node) (around : UnitShape) (n : Node) :
    n.mark extractors above around =
      ⟨n, claimedUnit extractors above around n,
        markList extractors (n :: above) (around.inside (claimedUnit extractors above around n))
          n.children⟩ := by
  cases n
  rfl

theorem mark_node (above : List Node) (around : UnitShape) (n : Node) :
    (n.mark extractors above around).node = n := by
  rw [mark_eq]

theorem markList_nodes (above : List Node) (around : UnitShape) (ns : List Node) :
    (markList extractors above around ns).map Marked.node = ns := by
  induction ns generalizing around with
  | nil => rfl
  | cons n ns ih => simp only [markList, List.map_cons, mark_node, ih]

mutual
/-- The marking of a tree has the nodes of the tree, each once. -/
theorem preorder_mark (above : List Node) (around : UnitShape) :
    ∀ n : Node, (n.mark extractors above around).preorder.map Marked.node = n.preorder
  | ⟨kind, span, field, token, children⟩ => by
      simp only [mark, Marked.preorder, preorder, List.map_cons, preorderList_markList]
theorem preorderList_markList (above : List Node) (around : UnitShape) :
    ∀ ns : List Node,
      (Marked.preorderList (markList extractors above around ns)).map Marked.node = preorderList ns
  | [] => rfl
  | n :: ns => by
      simp only [markList, Marked.preorderList, preorderList, List.map_append,
        preorder_mark above around n, preorderList_markList above _ ns]
end

mutual
/-- The marks `mark` sets are right. -/
theorem right_mark (above : List Node) (around : UnitShape) :
    ∀ n : Node, (n.mark extractors above around).Right extractors above around.unit
  | ⟨kind, span, field, token, children⟩ => by
      refine .intro (markList_nodes _ _ _) ?_
      intro m hm
      have h := right_markList (⟨kind, span, field, token, children⟩ :: above) _ children m hm
      rwa [UnitShape.inside_unit] at h
theorem right_markList (above : List Node) (around : UnitShape) :
    ∀ ns : List Node, ∀ m ∈ markList extractors above around ns,
      m.Right extractors above around.unit
  | [], _, hm => absurd hm List.not_mem_nil
  | n :: ns, m, hm => by
      rcases List.mem_cons.mp hm with rfl | hm
      · exact right_mark above around n
      · exact right_markList above (around.add _) ns m hm
end

end Node

namespace Marked

theorem mem_preorderList {m : Marked} {ms : List Marked} :
    m ∈ preorderList ms ↔ ∃ c ∈ ms, m ∈ c.preorder := by
  induction ms with
  | nil => simp only [preorderList, List.not_mem_nil, false_and, exists_false]
  | cons c ms ih =>
      simp only [preorderList, List.mem_append, ih, List.mem_cons, exists_eq_or_imp]

section Right

variable {extractors : List UnitExtractor} {above : List Node} {around : UnitSpec} {m : Marked}

/-- Where marks are right, the nodes below have right marks too, with the
unit that is opened here around them, or else the one that is open here. -/
theorem Right.right_children (h : m.Right extractors above around) :
    m.children.map Marked.node = m.node.children ∧
      ∀ c ∈ m.children, c.Right extractors (m.node :: above) (m.unit.getD around) := by
  cases h with
  | intro hnodes hchildren => exact ⟨hnodes, hchildren⟩

/-- Where marks are right, a node without a unit is one that every extractor
declines. -/
theorem Right.unit_eq_none_iff (h : m.Right extractors above around) :
    m.unit = none ↔
      ∀ e ∈ extractors, e.extract m.node ⟨above, around.kind, around.key⟩ = none := by
  cases h with
  | intro _ _ =>
      rw [claimedUnit, Option.map_eq_none_iff, UnitExtractor.firstClaim_eq_none_iff]

/-- Where marks are right, the unit of a node is the one that the earliest
extractor to claim the node wants, with its key freed of those taken. -/
theorem Right.exists_extractor (h : m.Right extractors above around) {unit : UnitSpec}
    (hunit : m.unit = some unit) :
    ∃ before e after spec taken, extractors = before ++ e :: after ∧
      e.extract m.node ⟨above, around.kind, around.key⟩ = some spec ∧
      (∀ e' ∈ before, e'.extract m.node ⟨above, around.kind, around.key⟩ = none) ∧
      unit = { spec with key := OpenUnit.freeKey taken spec.key m.node.span.startCol } := by
  cases h with
  | @intro _ around n _ _ _ =>
      obtain ⟨spec, hclaim, rfl⟩ := Option.map_eq_some_iff.mp hunit
      obtain ⟨before, e, after, hsplit, hspec, hdecline⟩ :=
        UnitExtractor.firstClaim_eq_some_iff.mp hclaim
      exact ⟨before, e, after, spec, around.keysBelow, hsplit, hspec, hdecline, rfl⟩

end Right

/-- Where marks are right, every node starts what the extractors claim it
for. -/
theorem Right.exists_claim {extractors : List UnitExtractor} {above : List Node}
    {around : UnitSpec} {m : Marked} (h : m.Right extractors above around) :
    ∀ x ∈ m.preorder, ∃ (above' : List Node) (around' : UnitShape),
      x.unit = claimedUnit extractors above' around' x.node := by
  induction h with
  | @intro above around n children hnodes hchildren ih =>
      intro x hx
      rcases List.mem_cons.mp hx with rfl | hx
      · exact ⟨above, around, rfl⟩
      · obtain ⟨c, hc, hx⟩ := mem_preorderList.mp hx
        exact ih c hc x hx

mutual
/-- To contract a marked tree leaves its units in their order. -/
theorem preorderList_contract :
    ∀ m : Marked, UnitShape.preorderList m.contract = m.preorder.filterMap Marked.unit
  | ⟨n, some unit, children⟩ => by
      simp only [contract, UnitShape.preorderList, UnitShape.preorder, List.append_nil, preorder,
        List.filterMap_cons, preorderList_contractList children]
  | ⟨n, none, children⟩ => by
      simp only [contract, preorder, List.filterMap_cons, preorderList_contractList children]
theorem preorderList_contractList :
    ∀ ms : List Marked,
      UnitShape.preorderList (contractList ms) = (preorderList ms).filterMap Marked.unit
  | [] => rfl
  | m :: ms => by
      simp only [contractList, UnitShape.preorderList_append, preorderList, List.filterMap_append,
        preorderList_contract m, preorderList_contractList ms]
end

end Marked
end SourceMetrics
