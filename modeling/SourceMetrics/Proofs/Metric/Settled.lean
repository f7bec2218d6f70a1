/-
# Totals that agree with their own formulas

The totals of a unit are worked out one definition after the other, and a
formula is given what there is by then.  Whether its value still holds of the
finished totals is another question.  Measures are settled when it does:
each metric has the total that its definition gives on these same measures,
and nothing else has a value (`Settled`).

Where every formula rests on the inputs it declares, and these are defined
before it:

* `finalize` comes to settled measures (`settled_finalize`): what a formula
  reads is final when it is read;
* there are no others (`Settled.unique`), by induction along the
  definitions.

To be settled does not depend on the order of the definitions, so neither
does what `finalize` comes to.  Nothing is asked of the amounts.
-/
import Mathlib.Data.List.Induction
import SourceMetrics.Proofs.Metric.Totals

namespace SourceMetrics

variable {α : Type}

/-- The formula of a computed metric rests on the values of the inputs that it
declares. -/
def MetricDefinition.RestsOnInputs (d : MetricDefinition α) : Prop :=
  ∀ inputs formula, d.aggregation = .computed inputs formula →
    ∀ ms ms' : Measures α, (∀ m ∈ inputs, ms.value? m = ms'.value? m) → formula ms = formula ms'

namespace MetricRegistry

variable [Amount α]

/-- Each metric has the total that its definition gives on these same
measures, and no other metric has a value. -/
structure Settled (defs : List (MetricDefinition α)) (own gathered ms : Measures α) : Prop where
  total : ∀ d ∈ defs, ms.value? d.metric = totalOf own gathered ms d
  undefined : ∀ m, m ∉ defs.map (·.metric) → ms.value? m = none

theorem totalOf_congr {d : MetricDefinition α} (hd : d.RestsOnInputs) (own gathered : Measures α)
    {ms ms' : Measures α} (h : ∀ m ∈ d.inputs, ms.value? m = ms'.value? m) :
    totalOf own gathered ms d = totalOf own gathered ms' d := by
  unfold totalOf
  unfold MetricDefinition.inputs at h
  cases haggregation : d.aggregation with
  | sum => rfl
  | max => rfl
  | computed inputs formula =>
      rw [haggregation] at h
      exact hd inputs formula haggregation ms ms' h

/-- The first total of a metric is the one that is recorded. -/
theorem value?_finalizeOne_self {d : MetricDefinition α} {before : Measures α}
    (h : before.value? d.metric = none) (own gathered : Measures α) :
    (finalizeOne own gathered before d).value? d.metric = totalOf own gathered before d := by
  rw [finalizeOne]
  cases totalOf own gathered before d with
  | none => exact h
  | some x => simp only [Measures.value?_set, if_true]

variable {defs : List (MetricDefinition α)} {own gathered : Measures α}

/-- The totals that are worked out in order are settled. -/
theorem settled_finalize (hdefs : Admissible defs) (hrests : ∀ d ∈ defs, d.RestsOnInputs)
    (own gathered : Measures α) :
    Settled defs own gathered (finalize ⟨defs⟩ own gathered) := by
  have hrecords := recordsOwn_finalizeOne own gathered
  refine ⟨fun d hd => ?_, fun m hm => hrecords.value?_foldl hm .empty⟩
  obtain ⟨front, back, rfl⟩ := List.append_of_mem hd
  have hnodup := hdefs.nodup
  rw [List.map_append, List.map_cons, List.nodup_append] at hnodup
  obtain ⟨-, hback, hdisjoint⟩ := hnodup
  let before := front.foldl (finalizeOne own gathered) .empty
  have hfinal : finalize ⟨front ++ d :: back⟩ own gathered =
      back.foldl (finalizeOne own gathered) (finalizeOne own gathered before d) := by
    rw [finalize, List.foldl_append, List.foldl_cons]
  have hfresh : before.value? d.metric = none :=
    hrecords.value?_foldl (fun h => hdisjoint _ h _ List.mem_cons_self rfl) .empty
  -- What stands before `d` is not recorded again, so the inputs of `d` are final.
  have hinputs : ∀ m ∈ d.inputs,
      before.value? m = (finalize ⟨front ++ d :: back⟩ own gathered).value? m := by
    intro m hm
    have hfront := (hdefs.reads front d back rfl m hm).resolve_left List.not_mem_nil
    rw [finalize, List.foldl_append]
    refine (hrecords.value?_foldl (fun h => ?_) before).symm
    exact hdisjoint m hfront m h rfl
  calc (finalize ⟨front ++ d :: back⟩ own gathered).value? d.metric
      = (finalizeOne own gathered before d).value? d.metric := by
        rw [hfinal, hrecords.value?_foldl (List.nodup_cons.mp hback).1]
    _ = totalOf own gathered before d := value?_finalizeOne_self hfresh own gathered
    _ = totalOf own gathered _ d := totalOf_congr (hrests d hd) own gathered hinputs

/-- Settled measures are settled for the definitions in any other order. -/
theorem Settled.perm {defs' : List (MetricDefinition α)} {ms : Measures α}
    (h : Settled defs own gathered ms) (hperm : defs.Perm defs') :
    Settled defs' own gathered ms where
  total d hd := h.total d (hperm.mem_iff.mpr hd)
  undefined m hm := h.undefined m fun hmem => hm ((hperm.map (·.metric)).mem_iff.mp hmem)

/-- There is one way only for measures to be settled. -/
theorem Settled.unique {ms ms' : Measures α} (h : Settled defs own gathered ms)
    (h' : Settled defs own gathered ms') (hdefs : Admissible defs)
    (hrests : ∀ d ∈ defs, d.RestsOnInputs) : ms = ms' := by
  have hagree : ∀ front back, defs = front ++ back →
      ∀ m ∈ front.map (·.metric), ms.value? m = ms'.value? m := by
    intro front
    induction front using List.reverseRecOn with
    | nil => exact fun back _ m hm => absurd hm List.not_mem_nil
    | append_singleton front d ih =>
        intro back heq m hm
        rw [List.append_assoc, List.singleton_append] at heq
        rw [List.map_append, List.map_singleton, List.mem_append, List.mem_singleton] at hm
        rcases hm with hm | rfl
        · exact ih (d :: back) heq m hm
        · have hd : d ∈ defs := heq ▸ List.mem_append_right front List.mem_cons_self
          rw [h.total d hd, h'.total d hd]
          refine totalOf_congr (hrests d hd) own gathered fun m hm => ih (d :: back) heq m ?_
          exact (hdefs.reads front d back heq m hm).resolve_left List.not_mem_nil
  refine Measures.ext_value fun m => ?_
  by_cases hm : m ∈ defs.map (·.metric)
  · exact hagree defs [] (List.append_nil defs).symm m hm
  · rw [h.undefined m hm, h'.undefined m hm]

/-- The totals of a unit agree with their own formulas.  Let every formula of
an accepted registry rest on the inputs it declares.  Then the formula of a
computed metric, evaluated on the finished totals, gives the value that they
have for the metric, which is without a value just where the formula gives
none.  The same definitions in another order, where that is accepted too,
give the same totals. -/
theorem finalize_agrees_with_formulas {r : MetricRegistry α} (hr : ofDefinitions defs = .ok r)
    (hrests : ∀ d ∈ defs, d.RestsOnInputs) (own gathered : Measures α) :
    (∀ d ∈ r.definitions, ∀ inputs formula, d.aggregation = .computed inputs formula →
      (r.finalize own gathered).value? d.metric = formula (r.finalize own gathered) ∧
      ((r.finalize own gathered).contains d.metric = false ↔
        formula (r.finalize own gathered) = none)) ∧
    ∀ defs' r', defs.Perm defs' → ofDefinitions defs' = .ok r' →
      r'.finalize own gathered = r.finalize own gathered := by
  obtain ⟨hdefs, rfl⟩ := ofDefinitions_eq_ok_iff.mp hr
  have hsettled := settled_finalize hdefs hrests own gathered
  constructor
  · intro d hd inputs formula haggregation
    have hvalue := hsettled.total d hd
    rw [totalOf, haggregation] at hvalue
    refine ⟨hvalue, ?_⟩
    rw [Measures.contains, hvalue, Option.isSome_eq_false_iff, Option.isNone_iff_eq_none]
  · intro defs' r' hperm hr'
    obtain ⟨hdefs', rfl⟩ := ofDefinitions_eq_ok_iff.mp hr'
    have hrests' : ∀ d ∈ defs', d.RestsOnInputs := fun d hd => hrests d (hperm.mem_iff.mpr hd)
    exact (settled_finalize hdefs' hrests' own gathered).unique (hsettled.perm hperm) hdefs' hrests'

/-! ## A metric computed from a computed metric -/

/-- Complexity per function in whole numbers, for a unit that has functions. -/
def wholeDensity : Formula Nat := fun ms =>
  let functions := ms.get Metric.functions
  if 0 < functions then some (ms.get Metric.complexity / functions) else none

/-- By how much the complexity per function is above two. -/
def densityAboveTwo : Formula Nat := fun ms => (ms.value? "density").map (· - 2)

/-- The definitions of both, behind two summed metrics in the given order. -/
def densityChain (first second : Metric) : List (MetricDefinition Nat) :=
  [⟨first, .sum⟩, ⟨second, .sum⟩,
    ⟨"density", .computed [Metric.complexity, Metric.functions] wholeDensity⟩,
    ⟨"excess", .computed ["density"] densityAboveTwo⟩]

theorem restsOnInputs_densityChain (first second : Metric) :
    ∀ d ∈ densityChain first second, d.RestsOnInputs := by
  have hdensity : MetricDefinition.RestsOnInputs
      ⟨"density", .computed [Metric.complexity, Metric.functions] wholeDensity⟩ := by
    rintro _ _ ⟨⟩ ms ms' h
    rw [wholeDensity, wholeDensity, Measures.get, Measures.get, Measures.get, Measures.get,
      h Metric.complexity (by decide), h Metric.functions (by decide)]
  have hexcess : MetricDefinition.RestsOnInputs
      ⟨"excess", .computed ["density"] densityAboveTwo⟩ := by
    rintro _ _ ⟨⟩ ms ms' h
    simp only [densityAboveTwo, h "density" (by decide)]
  simp only [densityChain, List.forall_mem_cons, List.not_mem_nil, false_imp_iff, implies_true,
    and_true]
  exact ⟨by rintro _ _ ⟨⟩, by rintro _ _ ⟨⟩, hdensity, hexcess⟩

theorem finalize_agrees_with_formulas_densityChain :
    let own : Measures Nat := .ofList [(Metric.complexity, 7), (Metric.functions, 2)]
    let totals := finalize ⟨densityChain Metric.complexity Metric.functions⟩ own .empty
    totals.value? "density" = some 3 ∧ densityAboveTwo totals = some 1 ∧
      totals.value? "excess" = some 1 ∧
      finalize ⟨densityChain Metric.functions Metric.complexity⟩ own .empty = totals := by
  intro own totals
  have hr : ofDefinitions (densityChain Metric.complexity Metric.functions) =
      .ok ⟨densityChain Metric.complexity Metric.functions⟩ := rfl
  have hr' : ofDefinitions (densityChain Metric.functions Metric.complexity) =
      .ok ⟨densityChain Metric.functions Metric.complexity⟩ := rfl
  have hmem : (⟨"excess", .computed ["density"] densityAboveTwo⟩ : MetricDefinition Nat) ∈
      densityChain Metric.complexity Metric.functions :=
    .tail _ (.tail _ (.tail _ (.head _)))
  obtain ⟨hformulas, hordered⟩ := finalize_agrees_with_formulas hr
    (restsOnInputs_densityChain Metric.complexity Metric.functions) own .empty
  have hdensity : totals.value? "density" = some 3 := by decide +kernel
  have hexcess : densityAboveTwo totals = some 1 := by
    rw [densityAboveTwo, hdensity]
    rfl
  refine ⟨hdensity, hexcess, ?_, hordered _ _ (List.Perm.swap _ _ _) hr'⟩
  exact (hformulas _ hmem _ _ rfl).1.trans hexcess

end MetricRegistry
end SourceMetrics
