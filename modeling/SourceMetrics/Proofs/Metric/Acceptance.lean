/-
# Which definitions make a registry

A registry goes through its definitions once and keeps in mind the metrics
named so far.  What it asks can be said of the list as a whole, without the
order of its checks (`Admissible`): there is a definition, no metric is
named twice, and a computed metric reads only metrics that are named
before it.

* An admissible list is accepted as it is, and no other list is
  (`ofDefinitions_eq_ok_iff`).
* A list that is refused has the fault it is refused for
  (`ofDefinitions_eq_error`).
-/
import Mathlib.Data.List.Nodup
import SourceMetrics.Metric.Registry

namespace SourceMetrics.MetricRegistry

variable {α : Type}

/-- Every metric that a definition reads is given, or named by a definition
before it. -/
def ReadsBefore (given : List Metric) (defs : List (MetricDefinition α)) : Prop :=
  ∀ front d back, defs = front ++ d :: back →
    ∀ m ∈ d.inputs, m ∈ given ∨ m ∈ front.map (·.metric)

/-- What a registry asks of its definitions. -/
structure Admissible (defs : List (MetricDefinition α)) : Prop where
  nonempty : defs ≠ []
  nodup : (defs.map (·.metric)).Nodup
  reads : ReadsBefore [] defs

/-- A list of definitions has the fault that is named. -/
def HasFault (defs : List (MetricDefinition α)) : ConfigurationFault → Prop
  | .noMetrics => defs = []
  | .readsUndefined metric input =>
    ∃ front d back, defs = front ++ d :: back ∧ d.metric = metric ∧ input ∈ d.inputs ∧
      input ∉ front.map (·.metric)
  | .metricDefinedTwice metric =>
    ∃ front d back, defs = front ++ d :: back ∧ d.metric = metric ∧
      metric ∈ front.map (·.metric)
  | _ => False

/-! ## The definitions one by one -/

theorem readsBefore_nil (given : List Metric) : ReadsBefore (α := α) given [] := by
  intro front d back h
  exact absurd h.symm (List.append_ne_nil_of_right_ne_nil front (List.cons_ne_nil d back))

theorem readsBefore_cons_iff {given : List Metric} {d : MetricDefinition α}
    {rest : List (MetricDefinition α)} :
    ReadsBefore given (d :: rest) ↔
      (∀ m ∈ d.inputs, m ∈ given) ∧ ReadsBefore (d.metric :: given) rest := by
  constructor
  · intro h
    refine ⟨fun m hm => (h [] d rest rfl m hm).resolve_right List.not_mem_nil, ?_⟩
    rintro front e back rfl m hm
    rcases h (d :: front) e back rfl m hm with hgiven | hfront
    · exact .inl (List.mem_cons_of_mem _ hgiven)
    · rcases List.mem_cons.mp hfront with rfl | hfront
      · exact .inl List.mem_cons_self
      · exact .inr hfront
  · rintro ⟨hd, hrest⟩ front e back h m hm
    cases front with
    | nil =>
        cases h
        exact .inl (hd m hm)
    | cons d' front =>
        cases h
        rcases hrest front e back rfl m hm with hgiven | hfront
        · rcases List.mem_cons.mp hgiven with rfl | hgiven
          · exact .inr List.mem_cons_self
          · exact .inl hgiven
        · exact .inr (List.mem_cons_of_mem _ hfront)

theorem check_cons_eq_ok_iff {seen : List Metric} {d : MetricDefinition α}
    {rest : List (MetricDefinition α)} :
    check seen (d :: rest) = .ok () ↔
      (∀ m ∈ d.inputs, m ∈ seen) ∧ d.metric ∉ seen ∧ check (d.metric :: seen) rest = .ok () := by
  have hinputs : d.inputs.find? (fun m => !seen.contains m) = none ↔ ∀ m ∈ d.inputs, m ∈ seen := by
    simp only [List.find?_eq_none, Bool.not_eq_true, Bool.not_eq_false', List.contains_iff_mem]
  rw [check, ← hinputs]
  cases d.inputs.find? (fun m => !seen.contains m) with
  | some input => simp only [reduceCtorEq, false_and]
  | none =>
      by_cases hd : d.metric ∈ seen
      · simp only [List.contains_iff_mem.mpr hd, if_true, reduceCtorEq, hd, not_true_eq_false,
          false_and, and_false]
      · have hcontains : seen.contains d.metric = false := by
          rw [← Bool.not_eq_true, List.contains_iff_mem]
          exact hd
        simp only [hcontains, Bool.false_eq_true, if_false, hd, not_false_eq_true, true_and]

/-- Definitions pass the check when their metrics are new, each to the others
and to those seen before, and are read behind their definitions only. -/
theorem check_eq_ok_iff {seen : List Metric} {defs : List (MetricDefinition α)} :
    check seen defs = .ok () ↔
      (defs.map (·.metric)).Nodup ∧ (∀ d ∈ defs, d.metric ∉ seen) ∧ ReadsBefore seen defs := by
  induction defs generalizing seen with
  | nil =>
      refine ⟨fun _ => ⟨List.nodup_nil, fun d hd => absurd hd List.not_mem_nil, ?_⟩, fun _ => rfl⟩
      exact readsBefore_nil seen
  | cons d rest ih =>
      rw [check_cons_eq_ok_iff, ih, readsBefore_cons_iff, List.map_cons, List.nodup_cons,
        List.forall_mem_cons]
      constructor
      · rintro ⟨hinputs, hd, hnodup, hrest, hreads⟩
        refine ⟨⟨fun hmem => ?_, hnodup⟩, ⟨hd, fun e he hmem => ?_⟩, hinputs, hreads⟩
        · obtain ⟨e, he, heq⟩ := List.mem_map.mp hmem
          exact hrest e he (heq ▸ List.mem_cons_self)
        · exact hrest e he (List.mem_cons_of_mem _ hmem)
      · rintro ⟨⟨hd, hnodup⟩, ⟨hseen, hrest⟩, hinputs, hreads⟩
        refine ⟨hinputs, hseen, hnodup, fun e he hmem => ?_, hreads⟩
        rcases List.mem_cons.mp hmem with heq | hmem
        · exact hd (List.mem_map.mpr ⟨e, he, heq⟩)
        · exact hrest e he hmem

/-- The definition that does not pass the check, and why. -/
theorem check_eq_error {seen : List Metric} {defs : List (MetricDefinition α)} {err : ScanError}
    (h : check seen defs = .error err) :
    ∃ front d back, defs = front ++ d :: back ∧
      ((∃ input ∈ d.inputs, input ∉ seen ∧ input ∉ front.map (·.metric) ∧
          err = .configuration (.readsUndefined d.metric input)) ∨
        (d.metric ∈ seen ∨ d.metric ∈ front.map (·.metric)) ∧
          err = .configuration (.metricDefinedTwice d.metric)) := by
  induction defs generalizing seen with
  | nil => cases h
  | cons d rest ih =>
      rw [check] at h
      split at h
      next input hfind =>
        cases h
        have hunseen : input ∉ seen := by
          have := List.find?_some hfind
          rwa [Bool.not_eq_true', ← Bool.not_eq_true, List.contains_iff_mem] at this
        exact ⟨[], d, rest, rfl,
          .inl ⟨input, List.mem_of_find?_eq_some hfind, hunseen, List.not_mem_nil, rfl⟩⟩
      next hfind =>
        split at h
        next hseen =>
          cases h
          exact ⟨[], d, rest, rfl, .inr ⟨.inl (List.contains_iff_mem.mp hseen), rfl⟩⟩
        next hseen =>
          -- What a later definition misses or names again, `d` counts among the names before it.
          obtain ⟨front, e, back, rfl, hfault⟩ := ih h
          refine ⟨d :: front, e, back, rfl, hfault.imp ?_ ?_⟩
          · rintro ⟨input, hinput, hunseen, hfront, rfl⟩
            rw [List.mem_cons, not_or] at hunseen
            refine ⟨input, hinput, hunseen.2, ?_, rfl⟩
            rw [List.map_cons, List.mem_cons, not_or]
            exact ⟨hunseen.1, hfront⟩
          · rintro ⟨hnamed, rfl⟩
            refine ⟨?_, rfl⟩
            rw [List.map_cons, List.mem_cons, or_left_comm, ← or_assoc, ← List.mem_cons]
            exact hnamed

/-! ## The whole list -/

/-- A registry is made of an admissible list of definitions, and keeps it. -/
theorem ofDefinitions_eq_ok_iff {defs : List (MetricDefinition α)} {r : MetricRegistry α} :
    ofDefinitions defs = .ok r ↔ Admissible defs ∧ r = ⟨defs⟩ := by
  have hcheck : check [] defs = .ok () ↔ (defs.map (·.metric)).Nodup ∧ ReadsBefore [] defs := by
    rw [check_eq_ok_iff]
    exact and_congr_right fun _ => and_iff_right fun d _ => List.not_mem_nil
  cases defs with
  | nil =>
      refine ⟨fun h => ?_, fun h => absurd rfl h.1.nonempty⟩
      cases h
  | cons d rest =>
      rw [ofDefinitions]
      constructor
      · intro h
        cases hok : check [] (d :: rest) with
        | error err =>
            rw [hok] at h
            cases h
        | ok accepted =>
            rw [hok] at h
            cases h
            obtain ⟨hnodup, hreads⟩ := hcheck.mp hok
            exact ⟨⟨List.cons_ne_nil d rest, hnodup, hreads⟩, rfl⟩
      · rintro ⟨hadmissible, rfl⟩
        rw [hcheck.mpr ⟨hadmissible.nodup, hadmissible.reads⟩]
        rfl

/-- Definitions that make no registry are refused for a fault they have. -/
theorem ofDefinitions_eq_error {defs : List (MetricDefinition α)} {err : ScanError}
    (h : ofDefinitions defs = .error err) :
    ∃ fault, err = .configuration fault ∧ HasFault defs fault := by
  cases defs with
  | nil =>
      cases h
      exact ⟨.noMetrics, rfl, rfl⟩
  | cons d rest =>
      rw [ofDefinitions] at h
      cases hcheck : check [] (d :: rest) with
      | ok accepted =>
          rw [hcheck] at h
          cases h
      | error found =>
          rw [hcheck] at h
          cases h
          obtain ⟨front, e, back, heq, hfault⟩ := check_eq_error hcheck
          rcases hfault with ⟨input, hinput, -, hfront, rfl⟩ | ⟨hnamed, rfl⟩
          · exact ⟨_, rfl, front, e, back, heq, rfl, hinput, hfront⟩
          · exact ⟨_, rfl, front, e, back, heq, rfl, hnamed.resolve_left List.not_mem_nil⟩

/-- An accepted registry has the definitions it was made of. -/
theorem definitions_of_ofDefinitions {defs : List (MetricDefinition α)} {r : MetricRegistry α}
    (h : ofDefinitions defs = .ok r) : r.definitions = defs := by
  rw [(ofDefinitions_eq_ok_iff.mp h).2]

/-- An accepted registry names no metric twice. -/
theorem nodup_of_ofDefinitions {defs : List (MetricDefinition α)} {r : MetricRegistry α}
    (h : ofDefinitions defs = .ok r) : (r.definitions.map (·.metric)).Nodup := by
  obtain ⟨hadmissible, rfl⟩ := ofDefinitions_eq_ok_iff.mp h
  exact hadmissible.nodup

/-! ## Definitions by name -/

/-- Where no metric is named twice, the definition of a metric is the one of
its name. -/
theorem get?_eq_some_iff {r : MetricRegistry α} (hnodup : (r.definitions.map (·.metric)).Nodup)
    {m : Metric} {d : MetricDefinition α} :
    r.get? m = some d ↔ d ∈ r.definitions ∧ d.metric = m := by
  constructor
  · intro h
    have hfound := List.find?_some h
    exact ⟨List.mem_of_find?_eq_some h, beq_iff_eq.mp hfound⟩
  · rintro ⟨hd, rfl⟩
    cases hget : r.get? d.metric with
    | none => exact absurd (beq_self_eq_true d.metric) (List.find?_eq_none.mp hget d hd)
    | some e =>
        have hfound := List.find?_some hget
        have he := List.mem_of_find?_eq_some hget
        rw [List.inj_on_of_nodup_map hnodup he hd (beq_iff_eq.mp hfound)]

theorem get?_eq_none_iff {r : MetricRegistry α} {m : Metric} :
    r.get? m = none ↔ ∀ d ∈ r.definitions, d.metric ≠ m := by
  rw [get?, List.find?_eq_none]
  simp only [beq_iff_eq, ne_eq]

end SourceMetrics.MetricRegistry
