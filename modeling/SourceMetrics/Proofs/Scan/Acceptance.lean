/-
# Which configurations are accepted

An engine is made for a configuration just when its metrics are accepted, it
has a visitor, the metrics its visitors write are accepted, and the metric
that counts files, if there is one, may be written and is written by no
visitor (`Sound`, `build_eq_ok_iff`).  The engine then is what the
configuration says, with the routes of its visitors (`engineOf`).

A sound configuration stays sound when one of its visitors is left alone,
and when its visitors are put into another order.  No metric has two
visitors that own it.
-/
import Mathlib.Data.List.Nodup
import SourceMetrics.Proofs.Visitor.Plan
import SourceMetrics.Scan.Engine

namespace SourceMetrics

namespace DispatchPlan

variable {σ α : Type}

theorem mem_written {visitors : List (Visitor σ α)} {m : Metric} :
    m ∈ written visitors ↔ ∃ v ∈ visitors, m ∈ v.metrics :=
  List.mem_flatMap

theorem perm_written {visitors visitors' : List (Visitor σ α)} (h : visitors.Perm visitors') :
    (written visitors).Perm (written visitors') :=
  h.flatMap_right _

theorem Accepts.perm {registry : MetricRegistry α} {ms ns : List Metric}
    (h : Accepts registry [] ms) (hperm : ms.Perm ns) : Accepts registry [] ns where
  writable m hm := h.writable m (hperm.mem_iff.mpr hm)
  nodup := hperm.nodup_iff.mp h.nodup
  unowned _ _ := List.not_mem_nil

/-- The metrics of one visitor are accepted by themselves. -/
theorem Accepts.single {registry : MetricRegistry α} {visitors : List (Visitor σ α)}
    (h : Accepts registry [] (written visitors)) {v : Visitor σ α} (hv : v ∈ visitors) :
    Accepts registry [] (written [v]) := by
  have hwritten : written [v] = v.metrics := List.flatMap_singleton _ _
  rw [hwritten]
  refine ⟨fun m hm => ?_, ?_, fun _ _ => List.not_mem_nil⟩
  · exact h.writable m (mem_written.mpr ⟨v, hv, hm⟩)
  · exact (List.nodup_flatMap.mp h.nodup).1 v hv

/-- No two visitors own the same metric. -/
theorem Accepts.sole_owner {registry : MetricRegistry α} {visitors : List (Visitor σ α)}
    (h : Accepts registry [] (written visitors)) {i j : Nat} {v w : Visitor σ α}
    (hv : visitors[i]? = some v) (hw : visitors[j]? = some w) {m : Metric} (hm : m ∈ v.metrics)
    (hm' : m ∈ w.metrics) : i = j := by
  have hdisjoint := List.pairwise_iff_getElem.mp (List.nodup_flatMap.mp h.nodup).2
  obtain ⟨hi, rfl⟩ := List.getElem?_eq_some_iff.mp hv
  obtain ⟨hj, rfl⟩ := List.getElem?_eq_some_iff.mp hw
  rcases Nat.lt_trichotomy i j with hlt | heq | hlt
  · exact absurd hm' (hdisjoint i j hi hj hlt hm)
  · exact heq
  · exact absurd hm (hdisjoint j i hj hi hlt hm')

end DispatchPlan

namespace Engine

variable {σ α : Type}

open DispatchPlan

theorem checkFilesMetric_eq_ok_iff (registry : MetricRegistry α) (visitors : List (Visitor σ α))
    (m : Metric) :
    checkFilesMetric registry visitors m = .ok () ↔
      Writable registry m ∧ m ∉ written visitors := by
  have hfind : visitors.find? (fun v => v.metrics.contains m) = none ↔ m ∉ written visitors := by
    rw [List.find?_eq_none, mem_written, not_exists]
    simp only [List.contains_iff_mem, not_and]
  rw [checkFilesMetric, ← hfind, Writable]
  cases registry.get? m with
  | none => simp only [reduceCtorEq, false_and, exists_false]
  | some d =>
      cases hcomputed : d.isComputed with
      | true =>
          simp only [if_true, reduceCtorEq, Option.some.injEq, exists_eq_left', hcomputed,
            Bool.true_eq_false, false_and]
      | false =>
          simp only [Bool.false_eq_true, if_false, Option.some.injEq, exists_eq_left', hcomputed,
            true_and]
          cases visitors.find? (fun v => v.metrics.contains m) with
          | none => simp only
          | some v => simp only [reduceCtorEq]

/-- The metrics of a configuration are accepted as the given registry, and so
are its visitors and the metric that counts files. -/
structure Sound (config : ScannerConfig σ α) (registry : MetricRegistry α) : Prop where
  registered : MetricRegistry.ofDefinitions config.metrics = .ok registry
  visitors : config.visitors ≠ []
  accepts : Accepts registry [] (written config.visitors)
  files : ∀ m, config.filesMetric = some m → Writable registry m ∧ m ∉ written config.visitors

/-- The engine of a configuration that is sound. -/
def engineOf (config : ScannerConfig σ α) (grammar : Grammar) (registry : MetricRegistry α) :
    Engine σ α :=
  ⟨grammar, registry, DispatchPlan.empty.routes 0 config.visitors, config.visitors,
    config.extractors, config.filesMetric⟩

/-- The check of the metric that counts files, where there is one. -/
theorem checkFiles_eq_ok_iff (registry : MetricRegistry α) (config : ScannerConfig σ α) :
    (match config.filesMetric with
      | some m => checkFilesMetric registry config.visitors m
      | none => .ok ()) = .ok () ↔
      ∀ m, config.filesMetric = some m → Writable registry m ∧ m ∉ written config.visitors := by
  cases config.filesMetric with
  | none =>
      constructor
      · intro _ m hm
        cases hm
      · intro _
        rfl
  | some m =>
      rw [checkFilesMetric_eq_ok_iff]
      constructor
      · rintro h k hk
        obtain rfl := Option.some.inj hk
        exact h
      · exact fun h => h m rfl

theorem bind_eq_ok_iff {A B : Type} {x : Except ScanError A} {f : A → Except ScanError B} {b : B} :
    x.bind f = .ok b ↔ ∃ a, x = .ok a ∧ f a = .ok b := by
  cases x with
  | error err =>
      constructor
      · intro h
        cases h
      · rintro ⟨a, ha, -⟩
        cases ha
  | ok a =>
      constructor
      · exact fun h => ⟨a, rfl, h⟩
      · rintro ⟨a', ha', h⟩
        cases ha'
        exact h

theorem bind_eq_error_iff {A B : Type} {x : Except ScanError A} {f : A → Except ScanError B}
    {err : ScanError} :
    x.bind f = .error err ↔ x = .error err ∨ ∃ a, x = .ok a ∧ f a = .error err := by
  cases x with
  | error found =>
      constructor
      · intro h
        cases h
        exact .inl rfl
      · rintro (h | ⟨a, ha, -⟩)
        · cases h
          rfl
        · cases ha
  | ok a =>
      constructor
      · exact fun h => .inr ⟨a, rfl, h⟩
      · rintro (h | ⟨a', ha', h⟩)
        · cases h
        · cases ha'
          exact h

/-- An engine is made in three steps that may fail. -/
theorem build_eq_bind (config : ScannerConfig σ α) (grammar : Grammar) :
    build config grammar =
      (MetricRegistry.ofDefinitions config.metrics).bind fun registry =>
        (DispatchPlan.build registry config.visitors).bind fun plan =>
          Except.bind (match config.filesMetric with
            | some m => checkFilesMetric registry config.visitors m
            | none => .ok ()) fun _ =>
              .ok ⟨grammar, registry, plan, config.visitors, config.extractors,
                config.filesMetric⟩ := by
  rw [build]
  cases config.filesMetric <;> rfl

/-- An engine is made just for a sound configuration. -/
theorem build_eq_ok_iff (config : ScannerConfig σ α) (grammar : Grammar) (e : Engine σ α) :
    build config grammar = .ok e ↔
      ∃ registry, Sound config registry ∧ e = engineOf config grammar registry := by
  simp only [build_eq_bind, bind_eq_ok_iff, DispatchPlan.build_eq_ok_iff]
  constructor
  · rintro ⟨registry, hregistry, _, ⟨hne, haccepts, rfl⟩, _, hfiles, heq⟩
    refine ⟨registry, ⟨hregistry, hne, haccepts, ?_⟩, (Except.ok.inj heq).symm⟩
    exact (checkFiles_eq_ok_iff registry config).mp hfiles
  · rintro ⟨registry, hsound, rfl⟩
    refine ⟨registry, hsound.registered, _, ⟨hsound.visitors, hsound.accepts, rfl⟩, (), ?_, rfl⟩
    exact (checkFiles_eq_ok_iff registry config).mpr hsound.files

/-- A sound configuration is sound with one of its visitors alone. -/
theorem Sound.alone {config : ScannerConfig σ α} {registry : MetricRegistry α}
    (h : Sound config registry) {v : Visitor σ α} (hv : v ∈ config.visitors) :
    Sound { config with visitors := [v] } registry where
  registered := h.registered
  visitors := List.cons_ne_nil v []
  accepts := h.accepts.single hv
  files m hm := by
    obtain ⟨hwritable, hunwritten⟩ := h.files m hm
    refine ⟨hwritable, fun hmem => hunwritten ?_⟩
    obtain ⟨w, hw, hown⟩ := mem_written.mp hmem
    obtain rfl := List.mem_singleton.mp hw
    exact mem_written.mpr ⟨w, hv, hown⟩

/-- Extractors have no say in whether a configuration is sound. -/
theorem Sound.withExtractors {config : ScannerConfig σ α} {registry : MetricRegistry α}
    (h : Sound config registry) (extractors : List UnitExtractor) :
    Sound { config with extractors := extractors } registry :=
  ⟨h.registered, h.visitors, h.accepts, h.files⟩

/-- A sound configuration is sound with its visitors in another order. -/
theorem Sound.perm {config : ScannerConfig σ α} {registry : MetricRegistry α}
    (h : Sound config registry) {visitors : List (Visitor σ α)}
    (hperm : config.visitors.Perm visitors) :
    Sound { config with visitors := visitors } registry where
  registered := h.registered
  visitors hnil := by
    have hnil' : visitors = [] := hnil
    rw [hnil'] at hperm
    exact h.visitors hperm.eq_nil
  accepts := h.accepts.perm (perm_written hperm)
  files m hm := by
    obtain ⟨hwritable, hunwritten⟩ := h.files m hm
    exact ⟨hwritable, fun hmem => hunwritten ((perm_written hperm).mem_iff.mpr hmem)⟩

end Engine
end SourceMetrics
