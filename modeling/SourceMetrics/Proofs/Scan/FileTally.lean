/-
# How many files the project counts

The metric that counts files is summed, and it is one on the unit of each
file.  So the total of the project is as many ones, added up from the first
file on: nothing is asked of the amounts but that one plus zero is one, and
they may round.

    file      own 1      nothing gathered from below      total 1 + 0
    project   nothing    gathers 0 + 1 + 1 + …            total 0 + (0 + 1 + …)

Floating point rounds no such sum up to 2 ^ 53, and stays there however many
ones follow (`zero_add_ones`).
-/
import SourceMetrics.Proofs.Metric.FloatCounts
import SourceMetrics.Proofs.Metric.Tally
import SourceMetrics.Proofs.Scan.Ownership
import SourceMetrics.Proofs.Scan.Skipping
import SourceMetrics.Proofs.Unit.ProjectTotals

namespace SourceMetrics

variable {σ α : Type} [Amount α]

/-! ## Ones added up -/

/-- In floating point so many ones are the count, up to 2 ^ 53. -/
theorem Amount.ones_eq_ofCount (n : Nat) : (ones n : Float) = ofCount (min n (2 ^ 53)) := by
  induction n with
  | zero => rfl
  | succ n ih =>
      have hone : (ones (n + 1) : Float) = ofCount (min n (2 ^ 53)) + 1 := congrArg (· + 1) ih
      rw [hone]
      rcases Nat.lt_or_ge n (2 ^ 53) with hlt | hge
      · rw [Nat.min_eq_left hlt.le, Nat.min_eq_left hlt, FloatCounts.ofCount_add_one hlt]
      · rw [Nat.min_eq_right hge, Nat.min_eq_right (Nat.le_succ_of_le hge),
          FloatCounts.ofCount_limit_add_one]

theorem Amount.zero_add_ones (n : Nat) :
    (0 + ones n : Float) = ofCount (min n (2 ^ 53)) := by
  rw [ones_eq_ofCount]
  exact FloatCounts.zero_add_ofCount (Nat.min_le_right n _)

/-! ## Summed metrics, whatever the amounts -/

namespace MetricRegistry

variable {r : MetricRegistry α} {m : Metric}

section
variable (hnodup : (r.definitions.map (·.metric)).Nodup) (hm : ⟨m, .sum⟩ ∈ r.definitions)
include hnodup hm

theorem value?_mergeChild_of_sum (gathered child : Measures α) :
    (r.mergeChild gathered child).value? m =
      match child.value? m with
      | none => gathered.value? m
      | some x => some (gathered.get m + x) := by
  obtain ⟨before, hbefore, hfold⟩ :=
    (recordsOwn_mergeOne child).value?_foldl_of_mem hnodup hm gathered
  rw [mergeChild, hfold, mergeOne]
  cases child.value? m with
  | none => exact hbefore
  | some x => simp only [Measures.value?_add, if_true, Measures.get, hbefore]

theorem value?_finalize_of_sum (own gathered : Measures α) :
    (r.finalize own gathered).value? m =
      match own.value? m, gathered.value? m with
      | none, none => none
      | x, y => some (x.getD 0 + y.getD 0) := by
  obtain ⟨before, hbefore, hfold⟩ :=
    (recordsOwn_finalizeOne own gathered).value?_foldl_of_mem hnodup hm .empty
  rw [finalize, hfold, finalizeOne, totalOf]
  cases own.value? m with
  | some x => simp only [Measures.value?_set, if_true]
  | none =>
      cases gathered.value? m with
      | some y => simp only [Measures.value?_set, if_true]
      | none => exact hbefore

theorem value?_gather_eq_none {totals : List (Measures α)}
    (h : ∀ child ∈ totals, child.value? m = none) : (r.gather totals).value? m = none := by
  have hfold : ∀ gathered : Measures α, gathered.value? m = none →
      (totals.foldl r.mergeChild gathered).value? m = none := by
    induction totals with
    | nil => exact fun _ hgathered => hgathered
    | cons child rest ih =>
        intro gathered hgathered
        obtain ⟨hchild, hrest⟩ := List.forall_mem_cons.mp h
        refine ih hrest _ ?_
        rw [value?_mergeChild_of_sum hnodup hm, hchild]
        exact hgathered
  exact hfold .empty rfl

/-- From children with one each, as many ones are gathered. -/
theorem value?_gather_eq_ones {totals : List (Measures α)}
    (h : ∀ child ∈ totals, child.value? m = some 1) :
    (r.gather totals).value? m = if totals.isEmpty then none else some (Amount.ones totals.length) := by
  induction totals using List.reverseRecOn with
  | nil => rfl
  | append_singleton totals child ih =>
      have hchild := h child (List.mem_append_right _ (List.mem_singleton_self child))
      have hothers := ih fun c hc => h c (List.mem_append_left _ hc)
      have hget : (r.gather totals).get m = Amount.ones totals.length := by
        rw [Measures.get, hothers]
        cases totals <;> rfl
      have hsome : (totals ++ [child]).isEmpty = false := by cases totals <;> rfl
      rw [gather, List.foldl_append]
      show (r.mergeChild (r.gather totals) child).value? m = _
      rw [value?_mergeChild_of_sum hnodup hm, hchild, hget, hsome, List.length_append]
      rfl

end
end MetricRegistry

namespace UnitTree

section
variable {r : MetricRegistry α} {m : Metric}

mutual
/-- Where no unit of a tree has an own value of a summed metric, there is no
total of it. -/
theorem value?_measures_eq_none (hnodup : (r.definitions.map (·.metric)).Nodup)
    (hm : ⟨m, .sum⟩ ∈ r.definitions) : ∀ t : UnitTree α, t.Accounted r →
    (∀ u ∈ t.preorder, u.own.value? m = none) → t.measures.value? m = none
  | ⟨kind, key, line, own, measures, lines, children⟩, h, hown => by
      have hroot : measures = r.finalize own (r.gather (children.map (·.measures))) :=
        h _ (mem_preorder_self _)
      obtain ⟨hfirst, hbelow⟩ := List.forall_mem_cons.mp hown
      have hfirst : own.value? m = none := hfirst
      have hchildren := values_measures_eq_none hnodup hm children (fun c hc => h.child hc) hbelow
      have hgathered := MetricRegistry.value?_gather_eq_none hnodup hm
        (List.forall_mem_map.mpr hchildren)
      show measures.value? m = none
      rw [hroot, MetricRegistry.value?_finalize_of_sum hnodup hm, hfirst, hgathered]
theorem values_measures_eq_none (hnodup : (r.definitions.map (·.metric)).Nodup)
    (hm : ⟨m, .sum⟩ ∈ r.definitions) : ∀ ts : List (UnitTree α), (∀ t ∈ ts, t.Accounted r) →
    (∀ u ∈ preorderList ts, u.own.value? m = none) → ∀ t ∈ ts, t.measures.value? m = none
  | [], _, _ => fun _ ht => absurd ht List.not_mem_nil
  | t :: ts, h, hown => by
      obtain ⟨ht, hts⟩ := List.forall_mem_cons.mp h
      obtain ⟨hfirst, hrest⟩ := List.forall_mem_append.mp hown
      exact List.forall_mem_cons.mpr
        ⟨value?_measures_eq_none hnodup hm t ht hfirst,
          values_measures_eq_none hnodup hm ts hts hrest⟩
end

end
end UnitTree

/-! ## The total of a file -/

namespace Engine

/-- Trees that are found come from scans of the files. -/
theorem Found.exists_of_mem {e : Engine σ α} {ms : List σ} {rs : List FileRequest}
    {trees : List (UnitTree α)} (h : e.Found ms rs trees) {tree : UnitTree α} (htree : tree ∈ trees) :
    ∃ ms' r, (e.scanRequest ms' r).result = .ok tree := by
  induction h with
  | nil => cases htree
  | failed _ _ ih => exact ih htree
  | scanned _ hscan _ ih =>
      rcases List.mem_cons.mp htree with rfl | htree
      · exact ⟨_, _, hscan⟩
      · exact ih htree

/-- Every file counts one. -/
theorem value?_filesMetric {config : ScannerConfig σ α} {registry : MetricRegistry α}
    (hsound : Sound config registry) {grammar : Grammar} (hone : (1 : α) + 0 = 1) {m : Metric}
    (hfiles : config.filesMetric = some m) (hm : ⟨m, .sum⟩ ∈ registry.definitions) {ms : List σ}
    {r : FileRequest} {tree : UnitTree α}
    (h : ((engineOf config grammar registry).scanRequest ms r).result = .ok tree) :
    tree.measures.value? m = some 1 := by
  obtain ⟨text, -, hscan⟩ := exists_scan_of_scanRequest h
  obtain ⟨root, s, -, htraverse⟩ := exists_traverse_of_scan hscan
  obtain ⟨-, hfile, hbelow⟩ := traverse_confines hsound grammar r.key root ms _ htraverse
  have haccounted : tree.Accounted registry := accounted_of_traverse htraverse
  have hnodup := MetricRegistry.nodup_of_ofDefinitions hsound.registered
  have hchildren := UnitTree.values_measures_eq_none hnodup hm tree.children
    (fun c hc => haccounted.child hc) (fun u hu => by
      obtain ⟨c, hc, hu⟩ := UnitTree.mem_preorderList.mp hu
      exact (hbelow c hc u hu).1.value?_eq_none (hsound.files m hfiles).2)
  have hgathered := MetricRegistry.value?_gather_eq_none hnodup hm
    (List.forall_mem_map.mpr hchildren)
  rw [haccounted tree (UnitTree.mem_preorder_self tree),
    MetricRegistry.value?_finalize_of_sum hnodup hm, hfile.counted trivial m hfiles, hgathered]
  exact congrArg some hone

end Engine

/-! ## The total of the project -/

namespace UnitIndex

/-- Where each file counts one, the project counts as many ones. -/
theorem KeepsTotals.value?_project {index : UnitIndex α} {t : UnitTree α} (h : index.Represents t)
    (hkeeps : index.KeepsTotals) {m : Metric}
    (hnodup : (index.registry.definitions.map (·.metric)).Nodup)
    (hm : ⟨m, .sum⟩ ∈ index.registry.definitions) (hown : index.project.own = .empty)
    (hfiles : ∀ c ∈ t.children, c.measures.value? m = some 1) :
    t.measures.value? m =
      if t.children.isEmpty then none else some (0 + Amount.ones t.children.length) := by
  have hgathered := MetricRegistry.value?_gather_eq_ones hnodup hm (List.forall_mem_map.mpr hfiles)
  rw [List.length_map, List.isEmpty_map] at hgathered
  have hproject : t.own = .empty := by
    rw [h.project_eq] at hown
    exact hown
  rw [hkeeps.measures_eq h]
  cases hnone : t.children.isEmpty with
  | true => rfl
  | false =>
      rw [hnone] at hgathered
      simp only [Bool.false_eq_true, if_false] at hgathered ⊢
      rw [MetricRegistry.value?_finalize_of_sum hnodup hm, hproject, hgathered]
      rfl

end UnitIndex
end SourceMetrics
