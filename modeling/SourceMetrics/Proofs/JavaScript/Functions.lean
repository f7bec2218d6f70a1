/-
# Functions of a JavaScript file

Functions are told apart as units and counted as nodes, by two lists of kinds
that are the same.  A node of such a kind falls to the unit that it starts
itself, so each function counts one of them and no other unit counts any.
Every such kind is among those of decisions, too, and the decisions of a unit
are counted where its functions are:

    program                  functions   decisions
    └─ function*                 1           1
       └─ if                                 1
          └─ function*           1           1

What a unit counts on itself is `CountsItself`, and what follows for the
units around it is `FunctionsCounted`: there are as many functions as units
that are one, and no more of them than decisions.  So it is on every unit of a
file, and on every unit of a session (`scanner_counts_functions`).
-/
import Mathlib.Algebra.Order.BigOperators.Group.List
import Mathlib.Algebra.Order.Group.Nat
import SourceMetrics.Proofs.JavaScript.Units
import SourceMetrics.Proofs.Scan.SessionTotals
import SourceMetrics.Proofs.Visitor.Counting

namespace SourceMetrics.JavaScript

open Amount Engine

/-! ## What a unit counts on itself -/

/-- A function is a decision. -/
theorem decision_of_function {kind : String} (h : functionTypes.contains kind = true) :
    complexityTypes.contains kind = true := by
  have hdecisions : ∀ k ∈ functionTypes, complexityTypes.contains k = true := by decide
  exact hdecisions kind (List.contains_iff_mem.mp h)

/-- Among the nodes of a file, those of a kind of function start functions,
and no others do. -/
theorem isFunction_of_mem_marking {σ α : Type} {e : Engine σ α} {options : Options}
    (h : e.extractors = extractors options)
    {file : String} {root : Node} {x : Marked} (hx : x ∈ (e.marking file root).preorder) :
    functionTypes.contains x.node.kind = x.unit.any (·.kind == .function) := by
  have hkind := kind_of_mem_marking h hx
  have hfunction := startedKind_eq_function_iff options x.node
  rw [← hkind] at hfunction
  rw [Bool.eq_iff_iff, ← hfunction]
  cases x.unit with
  | none => simp only [Option.map_none, Option.any_none, reduceCtorEq, Bool.false_eq_true]
  | some unit => simp only [Option.map_some, Option.any_some, Option.some.injEq, beq_iff_eq]

section
variable {α : Type} [Amount α]

/-- On a unit a function counts one if the unit is one, and there are no
fewer decisions. -/
def CountsItself (u : UnitTree α) : Prop :=
  u.own.value? Metric.functions = tally (if u.kind == .function then 1 else 0) ∧
    ∃ decisions, (if u.kind == .function then 1 else 0) ≤ decisions ∧
      u.own.value? Metric.complexity = tally decisions

namespace CountsItself

variable {u : UnitTree α}

theorem of_function (h : CountsItself u) (hkind : u.kind = .function) :
    u.own.value? Metric.functions = some (0 + 1) ∧
      ∃ more, u.own.value? Metric.complexity = some (ones (more + 1)) := by
  obtain ⟨hfunctions, decisions, hle, hcomplexity⟩ := h
  rw [hkind] at hfunctions hle
  obtain ⟨more, rfl⟩ := Nat.exists_eq_succ_of_ne_zero (Nat.pos_iff_ne_zero.mp hle)
  exact ⟨hfunctions, more, hcomplexity⟩

theorem of_other (h : CountsItself u) (hkind : u.kind ≠ .function) :
    u.own.value? Metric.functions = none := by
  rw [h.1, beq_eq_false_iff_ne.mpr hkind]
  rfl

/-- On a project nothing is recorded and nothing is counted. -/
theorem of_project (hkind : u.kind = .project) (hown : u.own = .empty) : CountsItself u := by
  refine ⟨?_, 0, ?_, ?_⟩
  · rw [hown, hkind]
    rfl
  · rw [hkind]
    exact Nat.le_refl 0
  · rw [hown]
    rfl

/-- In exact amounts there are as many functions as units that are one, and
no more of them than decisions. -/
theorem totals [LinearOrder α] [ExactCount α] (h : ∀ w ∈ u.preorder, CountsItself w)
    (hsum : ∀ m, (⟨m, .sum⟩ : MetricDefinition α) ∈ MetricDefinition.standard →
      u.measures.get m = ((u.owns m).map (·.getD 0)).sum) :
    u.measures.get Metric.functions = ofCount (u.descendantsOfKind .function).length ∧
      u.measures.get Metric.functions ≤ u.measures.get Metric.complexity := by
  choose! decisions hle hcomplexity using fun w hw => (h w hw).2
  have hfunctions : u.measures.get Metric.functions =
      ofCount (u.preorder.map fun w => if w.kind == .function then 1 else 0).sum := by
    rw [hsum Metric.functions (List.mem_iff_getElem?.mpr ⟨5, rfl⟩)]
    exact ExactCount.sum_tally fun w hw => (h w hw).1
  have hdecisions : u.measures.get Metric.complexity = ofCount (u.preorder.map decisions).sum := by
    rw [hsum Metric.complexity (List.mem_iff_getElem?.mpr ⟨7, rfl⟩)]
    exact ExactCount.sum_tally hcomplexity
  refine ⟨?_, ?_⟩
  · rw [hfunctions, sum_map_ones]
    rfl
  · rw [hfunctions, hdecisions]
    exact ExactCount.ofCount_le_ofCount (List.sum_le_sum hle)

end CountsItself

variable {options : Options} {extraMetrics : List (MetricDefinition α)}
  {extraVisitors : List (Visitor FileMemory α)} {registry : MetricRegistry α} {grammar : Grammar}

/-- A pass leaves its functions and decisions counted on every unit.  The
nodes of functions that fall to a unit are the one it starts at, or none, and
all of them are among the decisions. -/
theorem traverse_countsItself
    (hsound : Sound (config options extraMetrics extraVisitors) registry)
    {memories : List FileMemory}
    (hmemories : memories.length = (config options extraMetrics extraVisitors).visitors.length)
    (grammar : Grammar) (file : String) (root : Node) (events : List (Event α)) :
    ∃ tree s,
      (engineOf (config options extraMetrics extraVisitors) grammar registry).traverse file root
        memories events = .ok (tree, s) ∧
      ∀ u ∈ tree.preorder, CountsItself u := by
  let e := engineOf (config options extraMetrics extraVisitors) grammar registry
  have hfunctions : Visitor.counter Metric.functions functionTypes ∈
      (config options extraMetrics extraVisitors).visitors :=
    List.mem_iff_getElem?.mpr ⟨0, rfl⟩
  have hcomplexity : Visitor.counter Metric.complexity complexityTypes ∈
      (config options extraMetrics extraVisitors).visitors :=
    List.mem_iff_getElem?.mpr ⟨5, rfl⟩
  obtain ⟨tree, s, htraverse, hfunction⟩ := traverse_scores_counter _ _ hsound hmemories hfunctions
    grammar file root events
  obtain ⟨tree', s', htraverse', hdecision⟩ := traverse_scores_counter _ _ hsound hmemories
    hcomplexity grammar file root events
  cases htraverse.symm.trans htraverse'
  refine ⟨tree, s, htraverse, fun u hu => ?_⟩
  obtain ⟨i, hi⟩ := List.mem_iff_getElem?.mp hu
  have hcount : (((e.hosted file root).filter fun c => functionTypes.contains c.node.kind).map
      PlacedNode.unit).count i = if u.kind == .function then 1 else 0 :=
    e.count_openers file root htraverse (p := fun n => functionTypes.contains n.kind)
      (q := fun unit => unit.kind == .function) (fun x hx => isFunction_of_mem_marking rfl hx) rfl hi
  refine ⟨?_, _, ?_, hdecision.value_eq (UnitTree.getElem?_owns hi _)⟩
  · rw [hfunction.value_eq (UnitTree.getElem?_owns hi _), hcount]
  · have hdecisions : ∀ c : PlacedNode, functionTypes.contains c.node.kind = true →
        complexityTypes.contains c.node.kind = true := fun c => decision_of_function
    have hsublist := (List.monotone_filter_right (e.hosted file root) hdecisions).map
      PlacedNode.unit
    rw [← hcount]
    exact hsublist.count_le i

/-! ## All units of a session -/

/-- What the metrics of functions and of decisions say of a unit.  A function
counts one function on itself, and one decision or more; any other unit
counts no function.  In exact amounts the total of functions is the number of
units that are one, from the unit down, and that of decisions is no less. -/
structure FunctionsCounted (u : UnitTree α) : Prop where
  function : u.kind = .function →
    u.own.value? Metric.functions = some (0 + 1) ∧
      ∃ more, u.own.value? Metric.complexity = some (ones (more + 1))
  other : u.kind ≠ .function → u.own.value? Metric.functions = none
  decision : ∀ [LinearOrder α] [ExactCount α], u.kind = .function →
    ofCount 1 ≤ u.own.get Metric.complexity
  functions : ∀ [LinearOrder α] [ExactCount α],
    u.measures.get Metric.functions = ofCount (u.descendantsOfKind .function).length
  decisions : ∀ [LinearOrder α] [ExactCount α],
    u.measures.get Metric.functions ≤ u.measures.get Metric.complexity

theorem functionsCounted {u : UnitTree α} (h : ∀ w ∈ u.preorder, CountsItself w)
    (hsum : ∀ [LinearOrder α] [ExactCount α] (m : Metric),
      (⟨m, .sum⟩ : MetricDefinition α) ∈ MetricDefinition.standard →
        u.measures.get m = ((u.owns m).map (·.getD 0)).sum) : FunctionsCounted u where
  function := (h u (UnitTree.mem_preorder_self u)).of_function
  other := (h u (UnitTree.mem_preorder_self u)).of_other
  decision hkind := by
    obtain ⟨-, more, hcomplexity⟩ := (h u (UnitTree.mem_preorder_self u)).of_function hkind
    rw [Measures.get, hcomplexity, Option.getD_some, ExactCount.ones_eq]
    exact ExactCount.ofCount_le_ofCount (Nat.le_add_left 1 more)
  functions := (CountsItself.totals h hsum).1
  decisions := (CountsItself.totals h hsum).2

/-- With the JavaScript configuration, with units for classes or without, and
whatever further metrics and visitors it was accepted with, functions and
decisions are counted right.  This holds on every unit of every file that is
passed over, whatever its tree is and whatever the visitors have in mind; and
after any history it holds on every unit that is read back, with the project
among them. -/
theorem scanner_counts_functions {fresh : Scanner FileMemory α} {events : List (Event α)}
    (hnew : Scanner.new (config options extraMetrics extraVisitors) grammar =
      .ok (fresh, events)) :
    (∀ (memories : List FileMemory) (file : String) (root : Node) (earlier : List (Event α)),
      memories.length = fresh.engine.visitors.length →
      ∃ tree s, fresh.engine.traverse file root memories earlier = .ok (tree, s) ∧
        ∀ u ∈ tree.preorder, FunctionsCounted u) ∧
    ∀ (history : List Request) (id : Nat) (t : UnitTree α),
      (fresh.after history).index.toTree id = some t → FunctionsCounted t := by
  obtain ⟨registry, hsound, hfresh⟩ := Scanner.new_eq_ok hnew
  have hengine : fresh.engine =
      engineOf (config options extraMetrics extraVisitors) grammar registry :=
    congrArg Scanner.engine hfresh
  refine ⟨?_, ?_⟩
  · intro memories file root earlier hmemories
    rw [hengine] at hmemories ⊢
    obtain ⟨tree, s, htraverse, hcounts⟩ := traverse_countsItself hsound hmemories grammar file root
      earlier
    refine ⟨tree, s, htraverse, fun u hu => ?_⟩
    refine functionsCounted (fun w hw => hcounts w (UnitTree.mem_preorder_trans hw tree hu)) ?_
    intro _ _ m hm
    exact get_standard_eq_sum hsound hm ((accounted_of_traverse htraverse).of_mem hu)
  · intro history id t ht
    refine functionsCounted (Scanner.forall_units_after hnew history ?_ ?_ ht) ?_
    · intro ms key text tree hms htree
      rw [hengine] at hms htree
      obtain ⟨root, s, -, htraverse⟩ := exists_traverse_of_scan htree
      obtain ⟨tree', s', htraverse', hcounts⟩ := traverse_countsItself hsound hms grammar key root
        [.parsed key root.nodeCount]
      cases htraverse.symm.trans htraverse'
      exact hcounts
    · intro project hkind hown
      exact .of_project hkind hown
    · intro _ _ m hm
      refine Scanner.get_measures_after hnew history (d := ⟨m, .sum⟩) ?_ rfl ht t
        (UnitTree.mem_preorder_self t)
      rw [hengine]
      exact mem_registry_of_standard hsound hm

end

/-! ### A function within a method -/

/-- A text that is a class, with a method that decides and has a function. -/
def methodGrammar : Grammar :=
  let branch := fun (kind : String) (line : Nat) (children : List Node) =>
    Node.branch kind (.onLine line 1 20) children
  .ofTable "sample"
    [("x", .ok (branch "program" 1 [branch "class_declaration" 1 [branch "method_definition" 2
      [branch "if_statement" 3 [branch "function_expression" 3 []]]]]))] none

/-- A scanner for the text, with units for classes. -/
def methodScanner : Scanner FileMemory Nat :=
  let e := engineOf (config ⟨true, true⟩ [] []) methodGrammar ⟨MetricDefinition.standard⟩
  ⟨e, e.initialMemories, .new projectKey e.registry, false⟩

theorem scanner_counts_functions_method :
    (∃ tree s, methodScanner.engine.traverse "a.js" (.branch "arrow_function" ⟨1, 1, 1, 9⟩ [])
        methodScanner.memories [] = .ok (tree, s) ∧ ∀ u ∈ tree.preorder, FunctionsCounted u) ∧
      ∃ t, (methodScanner.after [.file (.text "a.js" "x")]).index.toTree UnitIndex.projectId =
          some t ∧
        FunctionsCounted t ∧ (t.descendantsOfKind .function).length = 2 ∧
        t.measures.get Metric.complexity = 3 := by
  have hnew : Scanner.new (config ⟨true, true⟩ [] []) methodGrammar = .ok (methodScanner, _) := rfl
  obtain ⟨hpass, hsession⟩ := scanner_counts_functions hnew
  refine ⟨hpass _ _ _ _ rfl, ?_⟩
  have htotals : ((methodScanner.after [.file (.text "a.js" "x")]).index.get?
      UnitIndex.projectId).map (fun u =>
        (u.measures.get Metric.functions, u.measures.get Metric.complexity)) = some (2, 3) := by
    decide +kernel
  obtain ⟨u, hu, htotals⟩ := Option.map_eq_some_iff.mp htotals
  obtain ⟨hfunctions, hdecisions⟩ := Prod.mk.inj htotals
  have htree := UnitIndex.toTree_eq hu
  have hcounted := hsession _ _ _ htree
  exact ⟨_, htree, hcounted, hcounted.functions.symm.trans hfunctions, hdecisions⟩

end SourceMetrics.JavaScript
