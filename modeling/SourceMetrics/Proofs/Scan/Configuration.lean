/-
# What is asked of a configuration

A scanner is made in three steps, each with a loop and a table of its own:
the definitions make a registry, the visitors claim their metrics, and the
metric that counts files is looked up among both.  What they ask for together
is said here of the configuration alone, without the order of the checks
(`Coherent`), and so are the faults that they report (`HasFault`).

The main statement, `new_accepts_coherent`: a scanner is made just for a
coherent configuration, and any other is refused for a fault of the
configuration that it has.
-/
import SourceMetrics.Proofs.Metric.Acceptance
import SourceMetrics.Proofs.Scan.Acceptance
import SourceMetrics.Scan.Scanner

namespace SourceMetrics

variable {σ α : Type}

namespace ScannerConfig

open DispatchPlan

/-- A metric has a definition, by which it is not computed. -/
def Records (config : ScannerConfig σ α) (m : Metric) : Prop :=
  ∃ d ∈ config.metrics, d.metric = m ∧ d.isComputed = false

/-- Metrics are defined once and read behind their definitions, visitors
write metrics that are recorded, each of them once, and the metric that
counts files is recorded as well and left to the scanner. -/
structure Coherent (config : ScannerConfig σ α) : Prop where
  metrics : config.metrics ≠ []
  definedOnce : (config.metrics.map (·.metric)).Nodup
  readsBefore : ∀ front d back, config.metrics = front ++ d :: back →
    ∀ m ∈ d.inputs, ∃ e ∈ front, e.metric = m
  visitors : config.visitors ≠ []
  writtenOnce : (config.visitors.flatMap (·.metrics)).Nodup
  recorded : ∀ v ∈ config.visitors, ∀ m ∈ v.metrics, config.Records m
  files : ∀ m, config.filesMetric = some m →
    config.Records m ∧ ∀ v ∈ config.visitors, m ∉ v.metrics

/-- A configuration has the fault that is named. -/
def HasFault (config : ScannerConfig σ α) : ConfigurationFault → Prop
  | .noVisitors => config.visitors = []
  | .writesUndefined visitor m =>
    (m, visitor) ∈ claims config.visitors ∧ ∀ d ∈ config.metrics, d.metric ≠ m
  | .writesComputed visitor m =>
    (m, visitor) ∈ claims config.visitors ∧
      ∃ d ∈ config.metrics, d.metric = m ∧ d.isComputed = true
  | .metricWrittenTwice m first second =>
    ∃ front back, claims config.visitors = front ++ (m, second) :: back ∧ (m, first) ∈ front
  | .filesMetricUndefined m => config.filesMetric = some m ∧ ∀ d ∈ config.metrics, d.metric ≠ m
  | .filesMetricComputed m =>
    config.filesMetric = some m ∧ ∃ d ∈ config.metrics, d.metric = m ∧ d.isComputed = true
  | .filesMetricWritten m visitor =>
    config.filesMetric = some m ∧ (m, visitor) ∈ claims config.visitors
  | fault => MetricRegistry.HasFault config.metrics fault

variable {config : ScannerConfig σ α} {registry : MetricRegistry α}

/-! ## Acceptance -/

/-- What may be written is what has a definition by which it is not computed,
since a metric has one definition only. -/
theorem writable_iff_records (h : MetricRegistry.ofDefinitions config.metrics = .ok registry)
    {m : Metric} : Writable registry m ↔ config.Records m := by
  have hnodup := MetricRegistry.nodup_of_ofDefinitions h
  simp only [Writable, Records, MetricRegistry.get?_eq_some_iff hnodup,
    MetricRegistry.definitions_of_ofDefinitions h, and_assoc]

theorem exists_sound_iff_coherent : (∃ registry, Engine.Sound config registry) ↔ config.Coherent := by
  constructor
  · rintro ⟨registry, hsound⟩
    have hrecords := fun m => writable_iff_records (m := m) hsound.registered
    obtain ⟨hdefs, -⟩ := MetricRegistry.ofDefinitions_eq_ok_iff.mp hsound.registered
    refine ⟨hdefs.nonempty, hdefs.nodup, fun front d back heq m hm => ?_, hsound.visitors,
      hsound.accepts.nodup, fun v hv m hm => ?_, fun m hm => ?_⟩
    · exact List.mem_map.mp ((hdefs.reads front d back heq m hm).resolve_left List.not_mem_nil)
    · exact (hrecords m).mp (hsound.accepts.writable m (mem_written.mpr ⟨v, hv, hm⟩))
    · obtain ⟨hwritable, hunwritten⟩ := hsound.files m hm
      exact ⟨(hrecords m).mp hwritable,
        fun v hv hmem => hunwritten (mem_written.mpr ⟨v, hv, hmem⟩)⟩
  · intro h
    have hregistered : MetricRegistry.ofDefinitions config.metrics = .ok ⟨config.metrics⟩ :=
      MetricRegistry.ofDefinitions_eq_ok_iff.mpr ⟨⟨h.metrics, h.definedOnce,
        fun front d back heq m hm => .inr (List.mem_map.mpr (h.readsBefore front d back heq m hm))⟩,
        rfl⟩
    have hrecords := fun m => writable_iff_records (m := m) hregistered
    refine ⟨_, hregistered, h.visitors, ⟨fun m hm => ?_, h.writtenOnce,
      fun _ _ => List.not_mem_nil⟩, fun m hm => ?_⟩
    · obtain ⟨v, hv, hmem⟩ := mem_written.mp hm
      exact (hrecords m).mpr (h.recorded v hv m hmem)
    · obtain ⟨hrecord, hunwritten⟩ := h.files m hm
      refine ⟨(hrecords m).mpr hrecord, fun hmem => ?_⟩
      obtain ⟨v, hv, hown⟩ := mem_written.mp hmem
      exact hunwritten v hv hown

/-! ## Refusal -/

theorem hasFault_of_metrics {fault : ConfigurationFault}
    (h : MetricRegistry.HasFault config.metrics fault) : config.HasFault fault := by
  cases fault with
  | noMetrics => exact h
  | readsUndefined metric input => exact h
  | metricDefinedTwice metric => exact h
  | _ => exact h.elim

/-- A refused claim is a fault of the configuration. -/
theorem hasFault_of_refuses (h : MetricRegistry.ofDefinitions config.metrics = .ok registry)
    {front back : List (Metric × String)} {claim : Metric × String} {fault : ConfigurationFault}
    (hclaims : claims config.visitors = front ++ claim :: back)
    (hrefuses : Refuses registry front claim fault) : config.HasFault fault := by
  have hnodup := MetricRegistry.nodup_of_ofDefinitions h
  have hdefinitions := MetricRegistry.definitions_of_ofDefinitions h
  have hclaim : claim ∈ claims config.visitors :=
    hclaims ▸ List.mem_append_right front List.mem_cons_self
  cases fault with
  | writesUndefined visitor m =>
      obtain ⟨rfl, hget⟩ := hrefuses
      exact ⟨hclaim, hdefinitions ▸ MetricRegistry.get?_eq_none_iff.mp hget⟩
  | writesComputed visitor m =>
      obtain ⟨rfl, d, hget, hcomputed⟩ := hrefuses
      obtain ⟨hd, hmetric⟩ := (MetricRegistry.get?_eq_some_iff hnodup).mp hget
      exact ⟨hclaim, d, hdefinitions ▸ hd, hmetric, hcomputed⟩
  | metricWrittenTwice m first second =>
      obtain ⟨rfl, hfirst⟩ := hrefuses
      exact ⟨front, back, hclaims, hfirst⟩
  | _ => exact hrefuses.elim

theorem mem_claims_of_mem {v : Visitor σ α} (hv : v ∈ config.visitors) {m : Metric}
    (hm : m ∈ v.metrics) : (m, v.name) ∈ claims config.visitors :=
  List.mem_flatMap.mpr ⟨v, hv, List.mem_map.mpr ⟨m, hm, rfl⟩⟩

theorem hasFault_of_checkFilesMetric
    (h : MetricRegistry.ofDefinitions config.metrics = .ok registry) {m : Metric}
    (hm : config.filesMetric = some m) {err : ScanError}
    (herr : Engine.checkFilesMetric registry config.visitors m = .error err) :
    ∃ fault, err = .configuration fault ∧ config.HasFault fault := by
  have hnodup := MetricRegistry.nodup_of_ofDefinitions h
  have hdefinitions := MetricRegistry.definitions_of_ofDefinitions h
  rw [Engine.checkFilesMetric] at herr
  split at herr
  next hget =>
    cases herr
    exact ⟨.filesMetricUndefined m, rfl, hm, hdefinitions ▸ MetricRegistry.get?_eq_none_iff.mp hget⟩
  next d hget =>
    split at herr
    next hcomputed =>
      cases herr
      obtain ⟨hd, hmetric⟩ := (MetricRegistry.get?_eq_some_iff hnodup).mp hget
      exact ⟨.filesMetricComputed m, rfl, hm, d, hdefinitions ▸ hd, hmetric, hcomputed⟩
    next hplain =>
      split at herr
      next v hfind =>
        cases herr
        have hwrites := List.find?_some hfind
        exact ⟨.filesMetricWritten m v.name, rfl, hm,
          mem_claims_of_mem (List.mem_of_find?_eq_some hfind) (List.contains_iff_mem.mp hwrites)⟩
      next => cases herr

/-- An engine is refused for a fault that the configuration has. -/
theorem hasFault_of_build {grammar : Grammar} {err : ScanError}
    (h : Engine.build config grammar = .error err) :
    ∃ fault, err = .configuration fault ∧ config.HasFault fault := by
  rw [Engine.build_eq_bind, Engine.bind_eq_error_iff] at h
  rcases h with hmetrics | ⟨registry, hregistry, h⟩
  · obtain ⟨fault, rfl, hfault⟩ := MetricRegistry.ofDefinitions_eq_error hmetrics
    exact ⟨fault, rfl, hasFault_of_metrics hfault⟩
  rcases Engine.bind_eq_error_iff.mp h with hvisitors | ⟨plan, -, h⟩
  · obtain ⟨fault, rfl, ⟨hnone, rfl⟩ | ⟨front, claim, back, hclaims, hrefuses⟩⟩ :=
      DispatchPlan.build_eq_error hvisitors
    · exact ⟨.noVisitors, rfl, hnone⟩
    · exact ⟨fault, rfl, hasFault_of_refuses hregistry hclaims hrefuses⟩
  rcases Engine.bind_eq_error_iff.mp h with hfiles | ⟨_, -, hmade⟩
  · cases hm : config.filesMetric with
    | none =>
        rw [hm] at hfiles
        cases hfiles
    | some m =>
        rw [hm] at hfiles
        exact hasFault_of_checkFilesMetric hregistry hm hfiles
  · cases hmade

end ScannerConfig

/-- A scanner is made just for the configurations in which there is a
definition, no metric is defined twice, and a computed metric reads only
metrics defined before it; in which there is a visitor, no metric is written
twice, by one visitor or by two, and all that are written are defined and not
computed; and in which the metric that counts files, if there is one, is
defined, not computed and written by no visitor.  Any other configuration is
refused for a fault of the configuration, and for one that it has. -/
theorem Scanner.new_accepts_coherent (config : ScannerConfig σ α) (grammar : Grammar) :
    ((∃ made, Scanner.new config grammar = .ok made) ↔ config.Coherent) ∧
    ∀ err, Scanner.new config grammar = .error err →
      ∃ fault, err = .configuration fault ∧ config.HasFault fault := by
  constructor
  · rw [← ScannerConfig.exists_sound_iff_coherent]
    constructor
    · rintro ⟨made, hmade⟩
      obtain ⟨e, he, -⟩ := Engine.bind_eq_ok_iff.mp hmade
      obtain ⟨registry, hsound, -⟩ := (Engine.build_eq_ok_iff config grammar e).mp he
      exact ⟨registry, hsound⟩
    · rintro ⟨registry, hsound⟩
      have he := (Engine.build_eq_ok_iff config grammar _).mpr ⟨registry, hsound, rfl⟩
      exact ⟨_, Engine.bind_eq_ok_iff.mpr ⟨_, he, rfl⟩⟩
  · intro err herr
    rcases Engine.bind_eq_error_iff.mp herr with hbuild | ⟨e, -, hmade⟩
    · exact ScannerConfig.hasFault_of_build hbuild
    · cases hmade

end SourceMetrics
