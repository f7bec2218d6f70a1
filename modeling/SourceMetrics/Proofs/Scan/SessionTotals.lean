/-
# The units of a session and their totals

A scan answers for the units of one file.  Two things carry this over to all
units of a session, with the project among them.

Every file below the project is the tree of a scan, for which each visitor
had something in mind (`Scanner.files_after`), and on the project itself
nothing is recorded; so what holds of the units of every scan, and of a
project without own values, holds of every unit (`Scanner.forall_units_after`).

The totals of a unit below the project come from its own values and its
children.  Those of the project do too from the first file on, and before
they are empty.  For a summed metric that is no exception: it has no total
where nothing was recorded.  So on every unit the total of a summed metric is
the sum of the own values of the unit and of all units below it
(`Scanner.get_measures_after`).
-/
import SourceMetrics.Proofs.Metric.Counts
import SourceMetrics.Proofs.Scan.FileOrder
import SourceMetrics.Proofs.Scan.Isolation

namespace SourceMetrics

variable {σ α : Type} [Amount α]

/-! ## As many states as visitors -/

namespace Engine

variable {e : Engine σ α}

theorem length_memories_of_performed {file : String} {s t : ScanState σ α} {a : Act}
    (h : e.Performed file s a t) :
    t.memories.length = s.memories.length := by
  cases h with
  | opening => rfl
  | answered => exact List.length_set
  | unanswered => rfl
  | closing => rfl

/-- A pass leaves as many states as it was given. -/
theorem length_memories_of_traverse {file : String} {root : Node} {memories : List σ}
    {events : List (Event α)} {tree : UnitTree α} {s : ScanState σ α}
    (h : e.traverse file root memories events = .ok (tree, s)) :
    s.memories.length = memories.length := by
  obtain ⟨s', u, hperform, -, htraverse, -⟩ := traverse_does e file root memories events
  cases h.symm.trans htraverse
  exact performAll_preserves e file (P := fun s => s.memories.length = memories.length)
    (fun hs hperformed => (length_memories_of_performed hperformed).trans hs) hperform rfl

theorem length_memories_scan (ms : List σ) (key text : String) :
    (e.scan ms key text).memories.length = ms.length := by
  rcases scan_cases e key text with ⟨fault, -, hfault⟩ | ⟨root, -, htree⟩
  · rw [hfault ms]
  · obtain ⟨tree, s, htraverse, hscan⟩ := htree ms
    rw [hscan]
    exact length_memories_of_traverse htraverse

/-- Scans and copies keep one state for each visitor. -/
theorem Leads.length_eq {ms ms' : List σ} (h : e.Leads ms ms')
    (hms : ms.length = e.visitors.length) : ms'.length = e.visitors.length := by
  induction h with
  | refl => exact hms
  | scan key text _ ih => exact (length_memories_scan _ key text).trans ih
  | fork _ ih => rw [forkMemories, List.length_zipWith, ih, Nat.min_self]

end Engine

/-! ## The units below the project -/

namespace UnitIndex

variable {index : UnitIndex α} {t : UnitTree α}

omit [Amount α] in
/-- What is read back of an index are units of its tree. -/
theorem Represents.mem_of_toTree (h : index.Represents t) {id : Nat} {u : UnitTree α}
    (hu : index.toTree id = some u) : u ∈ t.preorder := by
  have hid : id < index.units.size := by
    rw [toTree] at hu
    split at hu
    next => cases hu
    next hget => exact lt_size_of_get? hget
  rw [h.size_eq] at hid
  obtain ⟨below, above, hholds, -, hmem⟩ := exists_holds_of_mem none projectId t h.holds
    (Nat.zero_le id) (by rwa [projectId, Nat.zero_add])
  cases (toTree_of_holds above id below hholds).symm.trans hu
  exact hmem

/-- Where the files are accounted, the total of a summed metric is the sum of
the own values, on the project too. -/
theorem KeepsTotals.get_measures_eq_sum [LinearOrder α] [ExactAmount α]
    (hkeeps : index.KeepsTotals) (h : index.Represents t) {r : MetricRegistry α}
    (hr : index.registry = r) (hnodup : (r.definitions.map (·.metric)).Nodup)
    {d : MetricDefinition α} (hd : d ∈ r.definitions) (hsum : d.aggregation = .sum)
    (hown : t.own = .empty) (hfiles : ∀ c ∈ t.children, c.Accounted r) {u : UnitTree α}
    (hu : u ∈ t.preorder) :
    u.measures.get d.metric = ((u.owns d.metric).map (·.getD 0)).sum := by
  subst hr
  rcases UnitTree.mem_preorder.mp hu with rfl | ⟨c, hc, hu⟩
  · have hmeasures := hkeeps.measures_eq h
    cases hnone : u.children.isEmpty with
    | false =>
        rw [hnone] at hmeasures
        exact UnitTree.get_measures_eq_sum hnodup hd hsum (.of_children hmeasures hfiles)
    | true =>
        -- Before the first file there is nothing to be added.
        rw [hnone] at hmeasures
        have howns : u.owns d.metric = [none] := by
          rw [UnitTree.owns_eq_cons, hown, List.isEmpty_iff.mp hnone]
          rfl
        rw [howns, hmeasures]
        exact (ExactAmount.sum_eq_zero fun value hvalue => List.mem_singleton.mp hvalue).symm
  · exact UnitTree.get_measures_eq_sum hnodup hd hsum ((hfiles c hc).of_mem hu)

end UnitIndex

namespace Scanner

open UnitIndex Engine

/-! ## After any history -/

/-- A scanner between requests: each visitor has something in mind, the files
below the project are trees of scans, for which each visitor had so, and on
the project itself nothing is recorded. -/
structure HoldsScans (e : Engine σ α) (sc : Scanner σ α) : Prop where
  engine : sc.engine = e
  memories : sc.memories.length = e.visitors.length
  files : ∃ t, sc.index.Represents t ∧ t.kind = .project ∧ t.own = .empty ∧
    ∀ c ∈ t.children, ∃ ms key text,
      ms.length = e.visitors.length ∧ (e.scan ms key text).result = .ok c

/-- A step takes in the tree of a scan at most, and that comes last. -/
theorem HoldsScans.step {e : Engine σ α} {sc sc' : Scanner σ α} (hstep : Step sc sc')
    (h : sc.HoldsScans e) : sc'.HoldsScans e := by
  obtain ⟨rfl, hlength, t, ht, hkind, hown, hfiles⟩ := h
  cases hstep with
  | scanned key text =>
      exact ⟨rfl, (length_memories_scan _ key text).trans hlength, t, ht, hkind, hown, hfiles⟩
  | @taken ms key text tree id index hleads htree hinsert =>
      obtain ⟨-, t', ht', hchildren⟩ := ht.insert hinsert
      obtain ⟨hkind', hown'⟩ := ht.root_insert ht' hinsert
      refine ⟨rfl, hlength, t', ht', hkind'.trans hkind, hown'.trans hown, fun c hc => ?_⟩
      rw [hchildren] at hc
      rcases List.mem_append.mp hc with hc | hc
      · exact hfiles c hc
      · obtain rfl := List.mem_singleton.mp hc
        exact ⟨ms, key, text, hleads.length_eq hlength, htree⟩
  | cancelled => exact ⟨rfl, hlength, t, ht, hkind, hown, hfiles⟩

variable {config : ScannerConfig σ α} {grammar : Grammar} {fresh : Scanner σ α}
  {events : List (Event α)}

/-- After any history the files are trees of scans. -/
theorem files_after (hnew : new config grammar = .ok (fresh, events)) (history : List Request) :
    (fresh.after history).HoldsScans fresh.engine := by
  refine (steps_after fresh history).preserves (fun _ _ hstep h => h.step hstep) ?_
  refine ⟨rfl, ?_, _, represents_of_new hnew, rfl, rfl, fun c hc => absurd hc List.not_mem_nil⟩
  obtain ⟨registry, -, rfl⟩ := new_eq_ok hnew
  exact List.length_map _

/-- What holds of the units of every scan and of a project without own values
holds of all units after any history. -/
theorem forall_units_after (hnew : new config grammar = .ok (fresh, events))
    (history : List Request) {P : UnitTree α → Prop}
    (hscan : ∀ ms key text tree, ms.length = fresh.engine.visitors.length →
      (fresh.engine.scan ms key text).result = .ok tree → ∀ u ∈ tree.preorder, P u)
    (hproject : ∀ t : UnitTree α, t.kind = .project → t.own = .empty → P t) {id : Nat}
    {t : UnitTree α} (ht : (fresh.after history).index.toTree id = some t) :
    ∀ u ∈ t.preorder, P u := by
  obtain ⟨project, hproj, hkind, hown, hfiles⟩ := (files_after hnew history).files
  intro u hu
  rcases UnitTree.mem_preorder.mp (UnitTree.mem_preorder_trans hu project (hproj.mem_of_toTree ht))
    with rfl | ⟨c, hc, hu⟩
  · exact hproject u hkind hown
  · obtain ⟨ms, key, text, hlength, htree⟩ := hfiles c hc
    exact hscan ms key text c hlength htree u hu

/-- After any history the total of a summed metric is, on every unit, the sum
of the own values of the unit and of all units below it. -/
theorem get_measures_after [LinearOrder α] [ExactAmount α]
    (hnew : new config grammar = .ok (fresh, events)) (history : List Request)
    {d : MetricDefinition α} (hd : d ∈ fresh.engine.registry.definitions)
    (hsum : d.aggregation = .sum) {id : Nat} {t : UnitTree α}
    (ht : (fresh.after history).index.toTree id = some t) :
    ∀ u ∈ t.preorder, u.measures.get d.metric = ((u.owns d.metric).map (·.getD 0)).sum := by
  obtain ⟨project, hproj, -, hown, hfiles⟩ := (files_after hnew history).files
  obtain ⟨hkeeps, hregistry⟩ := keepsTotals_after hnew history
  obtain ⟨registry, hsound, hengine⟩ := new_eq_ok hnew
  have hnodup : (fresh.engine.registry.definitions.map (·.metric)).Nodup := by
    rw [hengine]
    exact MetricRegistry.nodup_of_ofDefinitions hsound.registered
  intro u hu
  refine hkeeps.get_measures_eq_sum hproj hregistry hnodup hd hsum hown (fun c hc => ?_)
    (UnitTree.mem_preorder_trans hu project (hproj.mem_of_toTree ht))
  obtain ⟨ms, key, text, -, htree⟩ := hfiles c hc
  obtain ⟨root, s, -, htraverse⟩ := exists_traverse_of_scan htree
  exact accounted_of_traverse htraverse

end Scanner
end SourceMetrics
