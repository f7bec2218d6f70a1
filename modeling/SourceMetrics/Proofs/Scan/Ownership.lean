/-
# Who may record what

A visitor may ask for any write, to any metric and in any hook.  Its wishes
meet three checks, made at three times:

* when an engine is made, every metric that a visitor lists has to be defined
  and not computed, and the metric that counts files is listed by none;
* when a write is carried out, its metric has to be one that its visitor
  lists;
* when totals are worked out, only the defined metrics are gone through.

`Permits` is what they leave for the values recorded on one unit.  An act of
a pass keeps it for all units, open or finished (`confines_of_performed`), so
it holds of every unit of a file, whatever the visitors are.
-/
import SourceMetrics.Proofs.Scan.Isolation
import SourceMetrics.Proofs.Scan.Totals
import SourceMetrics.Proofs.Visitor.Writes

namespace SourceMetrics

open DispatchPlan (written Writable)

/-! ## Defined metrics -/

namespace MetricRegistry

variable {α : Type} {registry : MetricRegistry α} {m : Metric}

/-- Totals are worked out for defined metrics alone. -/
theorem defined_of_value?_finalize [Amount α] {own gathered : Measures α} {x : α}
    (h : (registry.finalize own gathered).value? m = some x) :
    ∃ d ∈ registry.definitions, d.metric = m := by
  by_contra hundefined
  have hm : m ∉ registry.definitions.map (·.metric) := fun hm => hundefined (List.mem_map.mp hm)
  rw [finalize, (recordsOwn_finalizeOne own gathered).value?_foldl hm, Measures.value?_empty] at h
  cases h

/-- A metric that may be written has one definition, by which it is not
computed. -/
theorem plain_of_writable (hnodup : (registry.definitions.map (·.metric)).Nodup)
    (h : Writable registry m) :
    (∃ d ∈ registry.definitions, d.metric = m) ∧
      ∀ d ∈ registry.definitions, d.metric = m → d.isComputed = false := by
  obtain ⟨d, hget, hplain⟩ := h
  refine ⟨⟨d, (get?_eq_some_iff hnodup).mp hget⟩, fun d' hd' hmetric' => ?_⟩
  obtain rfl := Option.some.inj (((get?_eq_some_iff hnodup).mpr ⟨hd', hmetric'⟩).symm.trans hget)
  exact hplain

end MetricRegistry

/-! ## What may be recorded -/

namespace ScannerConfig

variable {σ α : Type} [Amount α]

/-- What may be recorded on a unit: metrics that visitors list, and on the
unit of a file the metric that counts files, which is one there. -/
structure Permits (config : ScannerConfig σ α) (isFile : Prop) (own : Measures α) : Prop where
  listed : ∀ m x, own.value? m = some x →
    m ∈ written config.visitors ∨ isFile ∧ config.filesMetric = some m
  counted : isFile → ∀ m, config.filesMetric = some m → own.value? m = some 1

/-- All units of a tree below that of a file record what they may, and none
keeps lines. -/
def Confines (config : ScannerConfig σ α) (t : UnitTree α) : Prop :=
  ∀ u ∈ t.preorder, config.Permits False u.own ∧ u.noSonarLines = []

/-- Open units, the innermost first, record what they may, and so do their
finished children.  The last one is the unit of the file. -/
def ConfinesAll (config : ScannerConfig σ α) : List (OpenUnit α) → Prop
  | [] => True
  | u :: outer =>
    config.Permits (outer = []) u.own ∧ (∀ t ∈ u.finished, config.Confines t) ∧
      config.ConfinesAll outer

variable {config : ScannerConfig σ α} {m : Metric}

theorem permits_empty {isFile : Prop} (h : ¬ isFile) : config.Permits isFile .empty where
  listed m x hx := by
    rw [Measures.value?_empty] at hx
    cases hx
  counted hfile := absurd hfile h

/-- No unit inside another one has a metric that no visitor lists. -/
theorem Permits.value?_eq_none {own : Measures α} (h : config.Permits False own)
    (hunlisted : m ∉ written config.visitors) : own.value? m = none := by
  cases hvalue : own.value? m with
  | none => rfl
  | some x =>
      rcases h.listed m x hvalue with hlisted | ⟨hfalse, -⟩
      · exact absurd hlisted hunlisted
      · exact hfalse.elim

/-- On the unit of a file nothing is recorded at first but the file. -/
theorem permits_of_file {isFile : Prop} (hfile : isFile) {own : Measures α}
    (h : ∀ m, own.value? m = if config.filesMetric = some m then some 1 else none) :
    config.Permits isFile own where
  listed m x hx := by
    rw [h] at hx
    split at hx
    next hm => exact .inr ⟨hfile, hm⟩
    next => cases hx
  counted _ m hm := by
    rw [h, if_pos hm]

/-- Writes of a visitor that owns listed metrics alone record what they may. -/
theorem Permits.applyAll {isFile : Prop} {c : VisitorContext α}
    (hlisted : ∀ m ∈ c.owned, m ∈ written config.visitors)
    (hfiles : ∀ m, config.filesMetric = some m → m ∉ written config.visitors)
    (h : config.Permits isFile c.own) (ws : List (Write α)) :
    config.Permits isFile (c.applyAll ws).own where
  listed m x hx := by
    rw [VisitorContext.value?_applyAll] at hx
    split at hx
    next howned => exact .inl (hlisted m (List.contains_iff_mem.mp howned))
    next => exact h.listed m x hx
  counted hfile m hm := by
    have hunowned : ¬ c.owned.contains m = true :=
      fun howned => hfiles m hm (hlisted m (List.contains_iff_mem.mp howned))
    rw [VisitorContext.value?_applyAll, if_neg hunowned]
    exact h.counted hfile m hm

/-- A unit inside another one is confined once it is finished. -/
theorem Confines.finish {registry : MetricRegistry α} {u : OpenUnit α}
    (hown : config.Permits False u.own) (hfinished : ∀ t ∈ u.finished, config.Confines t) :
    config.Confines (u.finish registry) := by
  intro w hw
  rcases UnitTree.mem_preorder.mp hw with rfl | ⟨c, hc, hw⟩
  · exact ⟨hown, rfl⟩
  · exact hfinished c (List.mem_reverse.mp hc) w hw

end ScannerConfig

/-! ## What acts keep -/

namespace Engine

variable {σ α : Type} [Amount α] {config : ScannerConfig σ α} {registry : MetricRegistry α}

open ScannerConfig

/-- An act leaves all units confined. -/
theorem confines_of_performed (hsound : Sound config registry) (grammar : Grammar)
    (file : String) {s t : ScanState σ α} {a : Act} (hs : config.ConfinesAll s.units)
    (h : (engineOf config grammar registry).Performed file s a t) :
    config.ConfinesAll t.units := by
  cases h with
  | @opening unit parent outer hu =>
      have hinner : ¬ s.units = [] := by
        rw [hu]
        exact List.cons_ne_nil parent outer
      exact ⟨permits_empty hinner, fun t ht => absurd ht List.not_mem_nil, hs⟩
  | @answered hook position node u outer v memory hu hv hm =>
      rw [hu] at hs
      obtain ⟨hown, hfinished, houter⟩ := hs
      have howned : (engineOf config grammar registry).plan.ownedBy position = v.metrics :=
        DispatchPlan.ownedBy_routes hv
      have hv' : v ∈ config.visitors := List.mem_of_getElem? hv
      refine ⟨Permits.applyAll (fun m hm => ?_) (fun m hm => (hsound.files m hm).2) hown _,
        hfinished, houter⟩
      rw [contextOf, howned] at hm
      exact DispatchPlan.mem_written.mpr ⟨v, hv', hm⟩
  | unanswered _ _ => exact hs
  | @closing u parent outer hu =>
      rw [hu] at hs
      obtain ⟨hown, hfinished, hparent, hsiblings, houter⟩ := hs
      have hinner : config.Permits False u.own :=
        (eq_false (List.cons_ne_nil parent outer)) ▸ hown
      refine ⟨hparent, fun t ht => ?_, houter⟩
      rcases List.mem_cons.mp ht with rfl | ht
      · exact .finish hinner hfinished
      · exact hsiblings t ht

theorem value?_fileUnit (e : Engine σ α) (file : String) (root : Node) (m : Metric) :
    (e.fileUnit file root).own.value? m = if e.filesMetric = some m then some 1 else none := by
  unfold fileUnit
  cases e.filesMetric with
  | none => rfl
  | some k =>
      simp only [Measures.value?_set, Option.some.injEq]
      rfl

theorem finished_fileUnit (e : Engine σ α) (file : String) (root : Node) :
    (e.fileUnit file root).finished = [] := by
  unfold fileUnit
  cases e.filesMetric <;> rfl

theorem confines_start (grammar : Grammar) (file : String) (root : Node) (memories : List σ)
    (events : List (Event α)) :
    config.ConfinesAll
      ((engineOf config grammar registry).start file root memories events).units := by
  refine ⟨permits_of_file rfl (value?_fileUnit _ file root), fun t ht => ?_, trivial⟩
  rw [finished_fileUnit] at ht
  exact absurd ht List.not_mem_nil

/-- Every unit of a file records what it may: the unit of the file itself,
and those below it, which keep no lines. -/
theorem traverse_confines (hsound : Sound config registry) (grammar : Grammar) (file : String)
    (root : Node) (memories : List σ) (events : List (Event α)) {tree : UnitTree α}
    {s : ScanState σ α}
    (h : (engineOf config grammar registry).traverse file root memories events = .ok (tree, s)) :
    tree.kind = .file ∧ config.Permits True tree.own ∧ ∀ c ∈ tree.children, config.Confines c := by
  obtain ⟨s', u, hperform, hu, htraverse, hshape⟩ :=
    traverse_does (engineOf config grammar registry) file root memories events
  obtain ⟨rfl, rfl⟩ := Prod.mk.inj (Except.ok.inj (htraverse.symm.trans h))
  have hs : config.ConfinesAll s'.units :=
    performAll_preserves _ file (confines_of_performed hsound grammar file) hperform
      (confines_start grammar file root memories events)
  rw [hu] at hs
  obtain ⟨hown, hfinished, -⟩ := hs
  refine ⟨congrArg (fun shape => shape.unit.kind) hshape, ?_, fun c hc => ?_⟩
  · exact ⟨fun m x hx => (hown.listed m x hx).imp_right fun hm => ⟨trivial, hm.2⟩,
      fun _ => hown.counted rfl⟩
  · exact hfinished c (List.mem_reverse.mp hc)

/-- What is recorded on the units of a file, by visitors of any kind.  The
own values of every unit are of metrics that visitors list, or of the metric
that counts files; these are defined, and none is computed.  The metric that
counts files is one on the unit of the file, and no unit below has it.  The
totals are of defined metrics, and the unit of the file alone keeps lines. -/
theorem traverse_records {grammar : Grammar} {e : Engine σ α}
    (he : build config grammar = .ok e) (file : String) (root : Node) (memories : List σ)
    (events : List (Event α)) :
    ∃ tree s, e.traverse file root memories events = .ok (tree, s) ∧ tree.kind = .file ∧
      (∀ u ∈ tree.preorder,
        (∀ m x, u.own.value? m = some x →
          ((∃ v ∈ config.visitors, m ∈ v.metrics) ∨ config.filesMetric = some m) ∧
          (∃ d ∈ config.metrics, d.metric = m) ∧
          ∀ d ∈ config.metrics, d.metric = m → d.isComputed = false) ∧
        ∀ m x, u.measures.value? m = some x → ∃ d ∈ config.metrics, d.metric = m) ∧
      (∀ m, config.filesMetric = some m →
        tree.own.value? m = some 1 ∧
          ∀ u ∈ UnitTree.preorderList tree.children, u.own.value? m = none) ∧
      ∀ u ∈ UnitTree.preorderList tree.children, u.noSonarLines = [] := by
  obtain ⟨registry, hsound, rfl⟩ := (build_eq_ok_iff config grammar e).mp he
  obtain ⟨tree, s, htraverse, haccounted⟩ :=
    traverse_accounted (engineOf config grammar registry) file root memories events
  obtain ⟨hkind, hfile, hbelow⟩ :=
    traverse_confines hsound grammar file root memories events htraverse
  have hnodup := MetricRegistry.nodup_of_ofDefinitions hsound.registered
  have hdefinitions := MetricRegistry.definitions_of_ofDefinitions hsound.registered
  have hinner : ∀ u ∈ UnitTree.preorderList tree.children,
      config.Permits False u.own ∧ u.noSonarLines = [] := by
    intro u hu
    obtain ⟨c, hc, hu⟩ := UnitTree.mem_preorderList.mp hu
    exact hbelow c hc u hu
  refine ⟨tree, s, htraverse, hkind, fun u hu => ⟨fun m x hx => ?_, fun m x hx => ?_⟩,
    fun m hm => ⟨hfile.counted trivial m hm, fun u hu => ?_⟩, fun u hu => (hinner u hu).2⟩
  · have hlisted : m ∈ written config.visitors ∨ config.filesMetric = some m := by
      rcases UnitTree.mem_preorder.mp hu with rfl | ⟨c, hc, hu⟩
      · exact (hfile.listed m x hx).imp_right And.right
      · exact ((hbelow c hc u hu).1.listed m x hx).imp_right And.right
    have hwritable : Writable registry m := by
      rcases hlisted with hm | hm
      · exact hsound.accepts.writable m hm
      · exact (hsound.files m hm).1
    refine ⟨hlisted.imp_left DispatchPlan.mem_written.mp, ?_⟩
    rw [← hdefinitions]
    exact MetricRegistry.plain_of_writable hnodup hwritable
  · rw [haccounted u hu] at hx
    rw [← hdefinitions]
    exact MetricRegistry.defined_of_value?_finalize hx
  · exact (hinner u hu).1.value?_eq_none (hsound.files m hm).2

/-! ## Visitors that reach for what is not theirs -/

/-- Functions and branches, with a unit for every function.  One visitor
writes to the metric that counts files as well, the other one to a metric
that is not defined. -/
def overreaching : ScannerConfig FileMemory Nat :=
  { meddling with
    visitors :=
      [meddler Metric.functions Metric.files ["function"],
        meddler Metric.complexity "depth" ["if"]] }

theorem traverse_records_overreaching :
    ∃ e, build overreaching sampleGrammar = .ok e ∧
      ∃ tree s, e.traverse "f" twoFunctions [.empty, .empty] [] = .ok (tree, s) ∧
        tree.own.value? Metric.files = some 1 ∧
        (∀ u ∈ tree.preorder, u.own.value? "depth" = none) ∧
        ∀ u ∈ UnitTree.preorderList tree.children,
          u.own.value? Metric.files = none ∧ u.noSonarLines = [] := by
  have he : build overreaching sampleGrammar =
      .ok (engineOf overreaching sampleGrammar ⟨MetricDefinition.standard⟩) := rfl
  obtain ⟨tree, s, htraverse, -, hunits, hfiles, hlines⟩ :=
    traverse_records he "f" twoFunctions [.empty, .empty] []
  obtain ⟨hroot, hbelow⟩ := hfiles Metric.files rfl
  refine ⟨_, he, tree, s, htraverse, hroot, fun u hu => ?_, fun u hu =>
    ⟨hbelow u hu, hlines u hu⟩⟩
  cases hdepth : u.own.value? "depth" with
  | none => rfl
  | some x =>
      obtain ⟨-, ⟨d, hd, hmetric⟩, -⟩ := (hunits u hu).1 "depth" x hdepth
      have hundefined : ∀ d ∈ overreaching.metrics, d.metric ≠ "depth" := by decide
      exact absurd hmetric (hundefined d hd)

end Engine
end SourceMetrics
