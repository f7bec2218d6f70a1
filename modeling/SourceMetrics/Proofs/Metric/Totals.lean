/-
# Totals of a metric over several units

A metric has a value on some units and none on others.  `combine` takes
such values together by an operation on amounts and passes over what has no
value: nothing together gives no value.

What a registry does with a summed metric and with a maximum is the same
but for that operation (`Aggregation.op?`):

* a child folded into what its parent has gathered combines the two
  (`value?_mergeChild`), so the gathered value is the values of all children
  combined (`value?_gather`);
* the total of a unit is its own value and the gathered one combined
  (`value?_finalize`).

All of it asks for a registry that names no metric twice, which is what
`ofDefinitions` accepts, and for amounts that add up without rounding
(`ExactAmount`).
-/
import Mathlib.Data.List.Basic
import Mathlib.Data.Nat.Basic
import Mathlib.Order.MinMax
import SourceMetrics.Proofs.Metric.Acceptance

namespace SourceMetrics

/-! ## Exact amounts -/

/-- Amounts without rounding, all of them numbers: they add up in any order,
and the larger of two is their maximum. -/
class ExactAmount (α : Type) [Amount α] [LinearOrder α] : Prop where
  add_assoc : ∀ a b c : α, a + b + c = a + (b + c)
  add_comm : ∀ a b : α, a + b = b + a
  zero_add : ∀ a : α, 0 + a = a
  larger_eq_max : ∀ a b : α, Amount.larger a b = max a b

/-- Counts are exact. -/
instance : ExactAmount Nat where
  add_assoc := Nat.add_assoc
  add_comm := Nat.add_comm
  zero_add := Nat.zero_add
  larger_eq_max a b := (max_def a b).symm

namespace ExactAmount

variable {α : Type} [Amount α] [LinearOrder α] [ExactAmount α]

theorem add_zero (a : α) : a + 0 = a := by
  rw [add_comm, zero_add]

instance : Std.Associative (α := α) (· + ·) := ⟨add_assoc⟩

instance : Std.Associative (α := α) Amount.larger where
  assoc a b c := by simp only [larger_eq_max, max_assoc]

instance : Std.Commutative (α := α) (· + ·) := ⟨add_comm⟩

instance : Std.Commutative (α := α) Amount.larger where
  comm a b := by simp only [larger_eq_max, max_comm]

end ExactAmount

/-! ## Values taken together -/

section Combine
variable {α : Type}

/-- The values there are, taken together by an operation. -/
def combine (op : α → α → α) (values : List (Option α)) : Option α :=
  values.foldr (Option.merge op) none

theorem combine_cons (op : α → α → α) (value : Option α) (values : List (Option α)) :
    combine op (value :: values) = Option.merge op value (combine op values) := rfl

theorem combine_append (op : α → α → α) [Std.Associative op] (xs ys : List (Option α)) :
    combine op (xs ++ ys) = Option.merge op (combine op xs) (combine op ys) := by
  induction xs with
  | nil => rw [List.nil_append, combine, combine, List.foldr_nil, Option.merge_none_left]
  | cons x xs ih =>
      rw [List.cons_append, combine_cons, combine_cons, ih]
      exact (Std.Associative.assoc x (combine op xs) (combine op ys)).symm

/-- Values together have a value where one of them has. -/
theorem isSome_combine (op : α → α → α) (values : List (Option α)) :
    (combine op values).isSome ↔ ∃ value ∈ values, value.isSome := by
  induction values with
  | nil => exact ⟨fun h => (Bool.false_ne_true h).elim, fun ⟨_, h, _⟩ => (List.not_mem_nil h).elim⟩
  | cons value values ih =>
      rw [combine_cons, Option.isSome_merge, Bool.or_eq_true, ih]
      exact (List.exists_mem_cons_iff (·.isSome = true) value values).symm

variable [Amount α] [LinearOrder α] [ExactAmount α]

/-- Values added together are the sum of all, with zero for what has none. -/
theorem getD_combine_add (values : List (Option α)) :
    (combine (· + ·) values).getD 0 = (values.map (·.getD 0)).sum := by
  induction values with
  | nil => rfl
  | cons value values ih =>
      rw [combine_cons, List.map_cons, List.sum_cons, ← ih]
      cases value with
      | none =>
          rw [Option.merge_none_left]
          exact (ExactAmount.zero_add ((combine (· + ·) values).getD 0)).symm
      | some x =>
          cases combine (· + ·) values with
          | none => exact (ExactAmount.add_zero x).symm
          | some y => rfl

/-- The largest of several values is one of them, and none is above it. -/
theorem combine_larger {values : List (Option α)} {x : α}
    (h : combine Amount.larger values = some x) :
    some x ∈ values ∧ ∀ y, some y ∈ values → y ≤ x := by
  induction values generalizing x with
  | nil => cases h
  | cons value values ih =>
      rw [combine_cons, Option.merge_eq_some_iff] at h
      rcases h with ⟨rfl, hrest⟩ | ⟨rfl, hrest⟩ | ⟨a, b, rfl, hrest, rfl⟩
      · refine ⟨List.mem_cons_self, fun y hy => ?_⟩
        rcases List.mem_cons.mp hy with heq | hy
        · exact (Option.some.inj heq).le
        · have hsome := (isSome_combine Amount.larger values).mpr ⟨some y, hy, rfl⟩
          rw [hrest] at hsome
          cases hsome
      · obtain ⟨hx, hle⟩ := ih hrest
        refine ⟨List.mem_cons_of_mem _ hx, fun y hy => ?_⟩
        rcases List.mem_cons.mp hy with heq | hy
        · cases heq
        · exact hle y hy
      · obtain ⟨hb, hle⟩ := ih hrest
        rw [ExactAmount.larger_eq_max]
        refine ⟨?_, fun y hy => ?_⟩
        · rcases max_choice a b with hmax | hmax
          · rw [hmax]
            exact List.mem_cons_self
          · rw [hmax]
            exact List.mem_cons_of_mem _ hb
        · rcases List.mem_cons.mp hy with heq | hy
          · obtain rfl := Option.some.inj heq
            exact le_max_left y b
          · exact (hle y hy).trans (le_max_right a b)

end Combine

/-! ## Registries -/

namespace Aggregation

variable {α : Type} [Amount α]

/-- The operation that takes values of a metric together, where the metric is
not computed. -/
def op? : Aggregation α → Option (α → α → α)
  | .sum => some (· + ·)
  | .max => some Amount.larger
  | .computed .. => none

theorem assoc_of_op? [LinearOrder α] [ExactAmount α] {aggregation : Aggregation α}
    {op : α → α → α} (h : aggregation.op? = some op) : Std.Associative op := by
  cases aggregation with
  | sum =>
      cases h
      infer_instance
  | max =>
      cases h
      infer_instance
  | computed inputs formula => cases h

theorem comm_of_op? [LinearOrder α] [ExactAmount α] {aggregation : Aggregation α}
    {op : α → α → α} (h : aggregation.op? = some op) : Std.Commutative op := by
  cases aggregation with
  | sum =>
      cases h
      infer_instance
  | max =>
      cases h
      infer_instance
  | computed inputs formula => cases h

end Aggregation

namespace MetricRegistry

variable {α : Type}

/-! ### Steps that record one metric -/

/-- A step for one definition leaves the values of all other metrics alone. -/
def RecordsOwn (step : Measures α → MetricDefinition α → Measures α) : Prop :=
  ∀ (ms : Measures α) (d : MetricDefinition α) (m : Metric),
    d.metric ≠ m → (step ms d).value? m = ms.value? m

section
variable {step : Measures α → MetricDefinition α → Measures α}

theorem RecordsOwn.value?_foldl (hstep : RecordsOwn step) {m : Metric}
    {defs : List (MetricDefinition α)} (h : m ∉ defs.map (·.metric)) (ms : Measures α) :
    (defs.foldl step ms).value? m = ms.value? m := by
  induction defs generalizing ms with
  | nil => rfl
  | cons d rest ih =>
      rw [List.map_cons, List.mem_cons, not_or] at h
      rw [List.foldl_cons, ih h.2, hstep ms d m (Ne.symm h.1)]

/-- Where no metric is named twice, one step alone sees to the value of a
metric, and comes upon the value that was there at first. -/
theorem RecordsOwn.value?_foldl_of_mem (hstep : RecordsOwn step) {d : MetricDefinition α}
    {defs : List (MetricDefinition α)} (hnodup : (defs.map (·.metric)).Nodup) (hd : d ∈ defs)
    (ms : Measures α) :
    ∃ before, before.value? d.metric = ms.value? d.metric ∧
      (defs.foldl step ms).value? d.metric = (step before d).value? d.metric := by
  obtain ⟨front, back, rfl⟩ := List.append_of_mem hd
  rw [List.map_append, List.map_cons, List.nodup_append] at hnodup
  obtain ⟨-, hback, hfront⟩ := hnodup
  refine ⟨front.foldl step ms, ?_, ?_⟩
  · exact hstep.value?_foldl (fun h => hfront d.metric h d.metric List.mem_cons_self rfl) ms
  · rw [List.foldl_append, List.foldl_cons, hstep.value?_foldl (List.nodup_cons.mp hback).1]

end

/-! ### What the steps record -/

variable [Amount α]

theorem recordsOwn_mergeOne (child : Measures α) : RecordsOwn (mergeOne child) := by
  intro gathered d m hne
  unfold mergeOne
  split
  · rfl
  · split
    · rw [Measures.value?_add, if_neg hne]
    · rw [Measures.value?_set, if_neg hne]
    · rfl

theorem recordsOwn_finalizeOne (own gathered : Measures α) :
    RecordsOwn (finalizeOne own gathered) := by
  intro totals d m hne
  unfold finalizeOne
  split
  · rw [Measures.value?_set, if_neg hne]
  · rfl

/-- The totals of several finished units, folded together in order. -/
def gather (r : MetricRegistry α) (totals : List (Measures α)) : Measures α :=
  totals.foldl r.mergeChild .empty

variable [LinearOrder α] [ExactAmount α] {r : MetricRegistry α} {d : MetricDefinition α}
  {op : α → α → α}

theorem value?_mergeOne (hop : d.aggregation.op? = some op) (child gathered : Measures α) :
    (mergeOne child gathered d).value? d.metric =
      Option.merge op (gathered.value? d.metric) (child.value? d.metric) := by
  unfold mergeOne
  cases child.value? d.metric with
  | none => exact Option.merge_none_right.symm
  | some x =>
      cases hd : d.aggregation with
      | sum =>
          rw [hd] at hop
          cases hop
          simp only [Measures.value?_add, if_true, Measures.get]
          cases gathered.value? d.metric with
          | none => exact congrArg some (ExactAmount.zero_add x)
          | some y => rfl
      | max =>
          rw [hd] at hop
          cases hop
          simp only [Measures.value?_set, if_true]
          cases gathered.value? d.metric <;> rfl
      | computed inputs formula =>
          rw [hd] at hop
          cases hop

theorem totalOf_eq_merge (hop : d.aggregation.op? = some op) (own gathered totals : Measures α) :
    totalOf own gathered totals d =
      Option.merge op (own.value? d.metric) (gathered.value? d.metric) := by
  unfold totalOf
  cases hd : d.aggregation with
  | sum =>
      rw [hd] at hop
      cases hop
      cases own.value? d.metric with
      | none =>
          cases gathered.value? d.metric with
          | none => rfl
          | some y => exact congrArg some (ExactAmount.zero_add y)
      | some x =>
          cases gathered.value? d.metric with
          | none => exact congrArg some (ExactAmount.add_zero x)
          | some y => rfl
  | max =>
      rw [hd] at hop
      cases hop
      cases own.value? d.metric <;> cases gathered.value? d.metric <;> rfl
  | computed inputs formula =>
      rw [hd] at hop
      cases hop

/-- A child folded in combines its value with the gathered one. -/
theorem value?_mergeChild (hnodup : (r.definitions.map (·.metric)).Nodup)
    (hd : d ∈ r.definitions) (hop : d.aggregation.op? = some op) (gathered child : Measures α) :
    (r.mergeChild gathered child).value? d.metric =
      Option.merge op (gathered.value? d.metric) (child.value? d.metric) := by
  obtain ⟨before, hbefore, hfold⟩ :=
    (recordsOwn_mergeOne child).value?_foldl_of_mem hnodup hd gathered
  rw [mergeChild, hfold, value?_mergeOne hop, hbefore]

/-- The gathered value is the values of all children combined. -/
theorem value?_gather (hnodup : (r.definitions.map (·.metric)).Nodup)
    (hd : d ∈ r.definitions) (hop : d.aggregation.op? = some op) (totals : List (Measures α)) :
    (r.gather totals).value? d.metric = combine op (totals.map (·.value? d.metric)) := by
  have : Std.Associative op := Aggregation.assoc_of_op? hop
  have fold : ∀ gathered : Measures α,
      (totals.foldl r.mergeChild gathered).value? d.metric =
        Option.merge op (gathered.value? d.metric)
          (combine op (totals.map (·.value? d.metric))) := by
    induction totals with
    | nil => exact fun gathered => Option.merge_none_right.symm
    | cons child rest ih =>
        intro gathered
        rw [List.foldl_cons, ih, value?_mergeChild hnodup hd hop, List.map_cons, combine_cons]
        exact Std.Associative.assoc (gathered.value? d.metric) (child.value? d.metric) _
  rw [gather, fold, Measures.value?_empty, Option.merge_none_left]

/-- The total of a unit combines its own value with the gathered one. -/
theorem value?_finalize (hnodup : (r.definitions.map (·.metric)).Nodup)
    (hd : d ∈ r.definitions) (hop : d.aggregation.op? = some op) (own gathered : Measures α) :
    (r.finalize own gathered).value? d.metric =
      Option.merge op (own.value? d.metric) (gathered.value? d.metric) := by
  obtain ⟨before, hbefore, hfold⟩ :=
    (recordsOwn_finalizeOne own gathered).value?_foldl_of_mem hnodup hd .empty
  rw [finalize, hfold, finalizeOne, totalOf_eq_merge hop]
  split
  next x hx => rw [Measures.value?_set, if_pos rfl, hx]
  next hnone => rw [hbefore, Measures.value?_empty, hnone]

end MetricRegistry
end SourceMetrics
