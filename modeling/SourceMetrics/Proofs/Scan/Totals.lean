/-
# The totals of the units of a file

The totals of a unit are worked out when it is closed, from its own values
and from what its children were folded into, one at a time as each of them
was closed.  This module says what they come to on every unit of the tree.

* `UnitTree.Accounted`: every unit has the totals of its own values and of
  its children.  A pass keeps this for the finished units, and keeps what an
  open unit has gathered at the fold of the children it has so far
  (`accounted_of_performed`), so the tree of a file is accounted.
* In an accounted tree the total of a summed metric, or of a maximum, is the
  own values of all units below taken together (`value?_measures`), by
  recursion on the tree.
* Together they give the totals of every unit of a file.
-/
import SourceMetrics.Proofs.Metric.Totals
import SourceMetrics.Proofs.Scan.Schedule
import SourceMetrics.Visitor.Counter

namespace SourceMetrics

/-! ## Accounted trees -/

namespace UnitTree

variable {α : Type}

theorem mem_preorder_self (t : UnitTree α) : t ∈ t.preorder := by
  cases t
  exact List.mem_cons_self

theorem mem_preorderList {u : UnitTree α} {ts : List (UnitTree α)} :
    u ∈ preorderList ts ↔ ∃ t ∈ ts, u ∈ t.preorder := by
  induction ts with
  | nil => simp only [preorderList, List.not_mem_nil, false_and, exists_false]
  | cons t ts ih => simp only [preorderList, List.mem_append, ih, List.exists_mem_cons_iff]

theorem mem_preorder {u t : UnitTree α} :
    u ∈ t.preorder ↔ u = t ∨ ∃ c ∈ t.children, u ∈ c.preorder := by
  cases t
  rw [preorder, List.mem_cons, mem_preorderList]

mutual
/-- What lies below a unit of a tree is in the tree. -/
theorem mem_preorder_trans {u w : UnitTree α} (hw : w ∈ u.preorder) :
    ∀ t : UnitTree α, u ∈ t.preorder → w ∈ t.preorder
  | ⟨_, _, _, _, _, _, children⟩, hu => by
      rcases List.mem_cons.mp hu with rfl | hu
      · exact hw
      · exact List.mem_cons_of_mem _ (mem_preorderList_trans hw children hu)
theorem mem_preorderList_trans {u w : UnitTree α} (hw : w ∈ u.preorder) :
    ∀ ts : List (UnitTree α), u ∈ preorderList ts → w ∈ preorderList ts
  | [], hu => absurd hu List.not_mem_nil
  | t :: ts, hu => by
      rcases List.mem_append.mp hu with hu | hu
      · exact List.mem_append_left _ (mem_preorder_trans hw t hu)
      · exact List.mem_append_right _ (mem_preorderList_trans hw ts hu)
end

variable [Amount α]

/-- Every unit of the tree has the totals of its own values and of its
children. -/
def Accounted (r : MetricRegistry α) (t : UnitTree α) : Prop :=
  ∀ u ∈ t.preorder, u.measures = r.finalize u.own (r.gather (u.children.map (·.measures)))

namespace Accounted

variable {r : MetricRegistry α} {t : UnitTree α}

theorem of_children (hroot : t.measures = r.finalize t.own (r.gather (t.children.map (·.measures))))
    (hchildren : ∀ c ∈ t.children, c.Accounted r) : t.Accounted r := by
  intro u hu
  rcases mem_preorder.mp hu with rfl | ⟨c, hc, hu⟩
  · exact hroot
  · exact hchildren c hc u hu

theorem child (h : t.Accounted r) {c : UnitTree α} (hc : c ∈ t.children) : c.Accounted r :=
  fun u hu => h u (mem_preorder.mpr (.inr ⟨c, hc, hu⟩))

theorem of_mem (h : t.Accounted r) {u : UnitTree α} (hu : u ∈ t.preorder) : u.Accounted r :=
  fun w hw => h w (mem_preorder_trans hw t hu)

end Accounted

section Values
variable [LinearOrder α] [ExactAmount α] {r : MetricRegistry α} {d : MetricDefinition α}
  {op : α → α → α}

mutual
/-- The total of a metric is the own values of all units of the tree, each
taken once. -/
theorem value?_measures (hnodup : (r.definitions.map (·.metric)).Nodup) (hd : d ∈ r.definitions)
    (hop : d.aggregation.op? = some op) :
    ∀ t : UnitTree α, t.Accounted r →
      t.measures.value? d.metric = combine op (t.preorder.map (·.own.value? d.metric))
  | ⟨kind, key, line, own, measures, lines, children⟩, h => by
      have hroot : measures = r.finalize own (r.gather (children.map (·.measures))) :=
        h _ (mem_preorder_self _)
      show measures.value? d.metric = _
      rw [hroot, MetricRegistry.value?_finalize hnodup hd hop,
        MetricRegistry.value?_gather hnodup hd hop, List.map_map, preorder, List.map_cons,
        combine_cons]
      congr 1
      exact values_measures hnodup hd hop children fun c hc => h.child hc
theorem values_measures (hnodup : (r.definitions.map (·.metric)).Nodup) (hd : d ∈ r.definitions)
    (hop : d.aggregation.op? = some op) :
    ∀ ts : List (UnitTree α), (∀ t ∈ ts, t.Accounted r) →
      combine op (ts.map fun t => t.measures.value? d.metric) =
        combine op ((preorderList ts).map (·.own.value? d.metric))
  | [], _ => rfl
  | t :: ts, h => by
      have : Std.Associative op := Aggregation.assoc_of_op? hop
      rw [List.map_cons, combine_cons, preorderList, List.map_append, combine_append,
        value?_measures hnodup hd hop t (h t List.mem_cons_self),
        values_measures hnodup hd hop ts fun t ht => h t (List.mem_cons_of_mem _ ht)]
end

/-- A unit has a total where some unit of its tree has a value of its own. -/
theorem isSome_value?_measures (hnodup : (r.definitions.map (·.metric)).Nodup)
    (hd : d ∈ r.definitions) (hop : d.aggregation.op? = some op) {t : UnitTree α}
    (h : t.Accounted r) :
    (t.measures.value? d.metric).isSome ↔ ∃ w ∈ t.preorder, (w.own.value? d.metric).isSome := by
  rw [value?_measures hnodup hd hop t h, isSome_combine]
  simp only [List.mem_map, exists_exists_and_eq_and]

end Values

end UnitTree

/-! ## Accounted states -/

namespace OpenUnit

variable {α : Type} [Amount α]

/-- An open unit has gathered the totals of its finished children, which are
accounted. -/
structure Accounted (r : MetricRegistry α) (u : OpenUnit α) : Prop where
  gathered : u.gathered = r.gather (u.finished.reverse.map (·.measures))
  finished : ∀ t ∈ u.finished, t.Accounted r

variable {r : MetricRegistry α} {u : OpenUnit α}

theorem accounted_new (kind : UnitKind) (key : String) (startLine : Nat) :
    (new kind key startLine : OpenUnit α).Accounted r :=
  ⟨rfl, fun _ ht => absurd ht List.not_mem_nil⟩

/-- What is recorded on an open unit does not touch what it has gathered. -/
theorem Accounted.withOwn (h : u.Accounted r) (own : Measures α) :
    OpenUnit.Accounted r { u with own := own } :=
  ⟨h.gathered, h.finished⟩

theorem Accounted.finish (h : u.Accounted r) : (u.finish r).Accounted r := by
  refine .of_children ?_ fun c hc => h.finished c (List.mem_reverse.mp hc)
  show r.finalize u.own u.gathered = _
  rw [h.gathered]
  rfl

theorem Accounted.addChild (h : u.Accounted r) {t : UnitTree α} (ht : t.Accounted r) :
    (u.addChild r t).Accounted r := by
  refine ⟨?_, fun c hc => ?_⟩
  · show r.mergeChild u.gathered t.measures = r.gather ((t :: u.finished).reverse.map _)
    rw [h.gathered, List.reverse_cons, List.map_append, MetricRegistry.gather,
      MetricRegistry.gather, List.foldl_append]
    rfl
  · rcases List.mem_cons.mp hc with rfl | hc
    · exact ht
    · exact h.finished c hc

end OpenUnit

/-- All open units are accounted. -/
def ScanState.Accounted {σ α : Type} [Amount α] (r : MetricRegistry α) (s : ScanState σ α) : Prop :=
  ∀ u ∈ s.units, u.Accounted r

namespace Engine

variable {σ α : Type} [Amount α] (e : Engine σ α) (file : String)

/-- An act keeps all open units accounted. -/
theorem accounted_of_performed {s t : ScanState σ α} {a : Act} (hs : s.Accounted e.registry)
    (h : e.Performed file s a t) : t.Accounted e.registry := by
  cases h with
  | opening hu =>
      rintro u hu'
      rcases List.mem_cons.mp hu' with rfl | hu'
      · exact OpenUnit.accounted_new _ _ _
      · exact hs u hu'
  | @answered _ _ _ u outer v memory hu hv hm =>
      rintro w hw
      rcases List.mem_cons.mp hw with rfl | hw
      · exact (hs u (hu ▸ List.mem_cons_self)).withOwn _
      · exact hs w (hu ▸ List.mem_cons_of_mem u hw)
  | unanswered _ _ => exact hs
  | @closing u parent outer hu =>
      have hparent : parent.Accounted e.registry :=
        hs parent (hu ▸ List.mem_cons_of_mem u List.mem_cons_self)
      rintro w hw
      rcases List.mem_cons.mp hw with rfl | hw
      · exact hparent.addChild (hs u (hu ▸ List.mem_cons_self)).finish
      · exact hs w (hu ▸ List.mem_cons_of_mem u (List.mem_cons_of_mem parent hw))

theorem accounted_start (root : Node) (memories : List σ) (events : List (Event α)) :
    (e.start file root memories events).Accounted e.registry := by
  intro u hu
  obtain rfl := List.mem_singleton.mp hu
  unfold fileUnit
  cases e.filesMetric with
  | none => exact OpenUnit.accounted_new _ _ _
  | some m => exact (OpenUnit.accounted_new _ _ _).withOwn _

/-- Every unit of the tree of a file has the totals of its own values and of
its children. -/
theorem traverse_accounted (root : Node) (memories : List σ) (events : List (Event α)) :
    ∃ tree s, e.traverse file root memories events = .ok (tree, s) ∧ tree.Accounted e.registry := by
  obtain ⟨s, u, hperform, hu, htraverse, -⟩ := traverse_does e file root memories events
  have hs : s.Accounted e.registry :=
    performAll_preserves e file (accounted_of_performed e file) hperform
      (accounted_start e file root memories events)
  have htree : (u.finish e.registry).Accounted e.registry :=
    (hs u (hu ▸ List.mem_cons_self)).finish
  -- The tree differs from its finished unit in the lines marked alone.
  refine ⟨e.treeOf s u, s, htraverse, .of_children ?_ fun c hc => htree.child hc⟩
  exact htree (u.finish e.registry) (UnitTree.mem_preorder_self _)

/-- The totals of a file.  On every unit a summed metric has a value where
some unit below, or the unit itself, has one of its own, and it is the sum
of the own values of all of these, each counted once.  A maximum has a value
in the same case, and it is the largest of them. -/
theorem traverse_totals [LinearOrder α] [ExactAmount α] {defs : List (MetricDefinition α)}
    (hr : MetricRegistry.ofDefinitions defs = .ok e.registry) (root : Node) (memories : List σ)
    (events : List (Event α)) :
    ∃ tree s, e.traverse file root memories events = .ok (tree, s) ∧
      ∀ u ∈ tree.preorder, ∀ d ∈ e.registry.definitions,
        (d.aggregation = .sum →
          ((u.measures.value? d.metric).isSome ↔
            ∃ w ∈ u.preorder, (w.own.value? d.metric).isSome) ∧
          u.measures.get d.metric = (u.preorder.map (·.own.get d.metric)).sum) ∧
        (d.aggregation = .max →
          ((u.measures.value? d.metric).isSome ↔
            ∃ w ∈ u.preorder, (w.own.value? d.metric).isSome) ∧
          ∀ x, u.measures.value? d.metric = some x →
            (∃ w ∈ u.preorder, w.own.value? d.metric = some x) ∧
            ∀ w ∈ u.preorder, ∀ y, w.own.value? d.metric = some y → y ≤ x) := by
  obtain ⟨tree, s, htraverse, htree⟩ := traverse_accounted e file root memories events
  have hnodup := MetricRegistry.nodup_of_ofDefinitions hr
  refine ⟨tree, s, htraverse, fun u hu d hd => ⟨fun hsum => ?_, fun hmax => ?_⟩⟩
  · have hop : d.aggregation.op? = some (· + ·) := by rw [hsum]; rfl
    have hvalue := UnitTree.value?_measures hnodup hd hop u (htree.of_mem hu)
    refine ⟨UnitTree.isSome_value?_measures hnodup hd hop (htree.of_mem hu), ?_⟩
    rw [Measures.get, hvalue, getD_combine_add, List.map_map]
    rfl
  · have hop : d.aggregation.op? = some Amount.larger := by rw [hmax]; rfl
    have hvalue := UnitTree.value?_measures hnodup hd hop u (htree.of_mem hu)
    refine ⟨UnitTree.isSome_value?_measures hnodup hd hop (htree.of_mem hu), fun x hx => ?_⟩
    obtain ⟨hmem, hle⟩ := combine_larger (hvalue.symm.trans hx)
    refine ⟨List.mem_map.mp hmem, fun w hw y hy => hle y ?_⟩
    exact List.mem_map.mpr ⟨w, hw, hy⟩

/-! ## A file with two functions -/

/-- Counts functions, each of which is a unit, and keeps the most branches
that one unit has. -/
def branchCounting : Engine FileMemory Nat :=
  let functions := Visitor.counter Metric.functions ["function"]
  let branches := Visitor.counter Metric.complexity ["if"]
  { grammar := .ofTable "sample" [] none
    registry := ⟨[⟨Metric.functions, .sum⟩, ⟨Metric.complexity, .max⟩]⟩
    plan := (DispatchPlan.empty.enter 0 functions).enter 1 branches
    visitors := [functions, branches]
    extractors := [.rule "functions" .function ["function"] .byKind]
    filesMetric := none }

/-- A function with one branch beside a function with two. -/
def twoFunctions : Node :=
  let branch := fun line : Nat => Node.branch "if" ⟨line, 1, line, 9⟩ []
  .branch "file" ⟨1, 1, 5, 1⟩
    [.branch "function" ⟨1, 1, 2, 9⟩ [branch 2],
      .branch "function" ⟨3, 1, 5, 9⟩ [branch 4, branch 5]]

theorem traverse_totals_twoFunctions :
    (∃ tree s, branchCounting.traverse "f" twoFunctions [.empty, .empty] [] = .ok (tree, s) ∧
      ∀ u ∈ tree.preorder,
        u.measures.get Metric.functions = (u.preorder.map (·.own.get Metric.functions)).sum) ∧
    (branchCounting.traverse "f" twoFunctions [.empty, .empty] []).toOption.map
        (fun result => result.1.preorder.map fun u =>
          (u.measures.value? Metric.functions, u.measures.value? Metric.complexity)) =
      some [(some 2, some 2), (some 1, some 1), (some 1, some 2)] := by
  refine ⟨?_, by cbv⟩
  obtain ⟨tree, s, htraverse, htotals⟩ :=
    traverse_totals branchCounting "f"
      (show MetricRegistry.ofDefinitions branchCounting.registry.definitions =
        .ok branchCounting.registry from rfl)
      twoFunctions [.empty, .empty] []
  exact ⟨tree, s, htraverse, fun u hu =>
    ((htotals u hu ⟨Metric.functions, .sum⟩ List.mem_cons_self).1 rfl).2⟩

end Engine
end SourceMetrics
