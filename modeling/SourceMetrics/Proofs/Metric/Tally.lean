/-
# Tallies

A counter adds one at a time.  On a unit where it never did so it has no
value; after `n` times its value there is `n` ones, added up from zero one
after the other (`Amount.tally`).  Nothing is asked of the amounts for that,
and they may round; in exact amounts a tally is the count.

The ones of a counter are credited to units by the numbers that the units
have in a list.  `Scored` says of a list of values that each is the tally of
its number among the credits:

    credits   0  2  2
    values    some (0 + 1),  none,  some (0 + 1 + 1),  none

A place without credits makes no difference, and one more credit changes one
value, by one more increment.
-/
import Mathlib.Algebra.BigOperators.Group.Finset.Basic
import SourceMetrics.Proofs.Metric.Counts
import SourceMetrics.Proofs.Visitor.Writes

namespace SourceMetrics

variable {α : Type} [Amount α]

/-! ## Ones added up -/

namespace Amount

/-- So many ones, added up one after the other. -/
def ones : Nat → α
  | 0 => 0
  | n + 1 => ones n + 1

/-- The value of a metric that so many ones were added to: none, where none
was. -/
def tally : Nat → Option α
  | 0 => none
  | n + 1 => some (ones (n + 1))

theorem getD_tally (n : Nat) : (tally n : Option α).getD 0 = ones n := by
  cases n <;> rfl

end Amount

open Amount

/-- Increments add up to a tally. -/
theorem Write.foldl_increment (m : Metric) (n k : Nat) :
    (List.replicate k (Write.increment m)).foldl (Write.revise m) (tally n : Option α) =
      tally (n + k) := by
  induction k generalizing n with
  | zero => rfl
  | succ k ih =>
      have hstep : Write.revise m (tally n : Option α) (.increment m) = tally (n + 1) := by
        rw [Write.increment, Write.revise, if_pos rfl, getD_tally]
        rfl
      rw [List.replicate_succ, List.foldl_cons, hstep, ih, Nat.add_right_comm, Nat.add_assoc]

/-- In exact amounts so many ones are the count. -/
theorem ExactCount.ones_eq [LinearOrder α] [ExactCount α] (n : Nat) : (ones n : α) = ofCount n := by
  induction n with
  | zero => exact ofCount_zero.symm
  | succ n ih => rw [ones, ih, ofCount_succ]

theorem ExactCount.sum_ofCount [LinearOrder α] [ExactCount α] (counts : List Nat) :
    (counts.map ofCount).sum = (ofCount counts.sum : α) := by
  induction counts with
  | nil => exact ofCount_zero.symm
  | cons n counts ih => rw [List.map_cons, List.sum_cons, List.sum_cons, ih, ofCount_add]

/-- In exact amounts tallies add up to the count of all. -/
theorem ExactCount.sum_tally [LinearOrder α] [ExactCount α] {β : Type} {items : List β}
    {value : β → Option α} {number : β → Nat} (h : ∀ b ∈ items, value b = tally (number b)) :
    ((items.map value).map (·.getD 0)).sum = ofCount (items.map number).sum := by
  rw [← sum_ofCount, List.map_map, List.map_map]
  refine congrArg List.sum (List.map_congr_left fun b hb => ?_)
  rw [Function.comp_apply, Function.comp_apply, h b hb, getD_tally, ones_eq]

/-- One for each item of a sort is how many there are. -/
theorem sum_map_ones {β : Type} (p : β → Bool) (items : List β) :
    (items.map fun b => if p b then 1 else 0).sum = (items.filter p).length := by
  induction items with
  | nil => rfl
  | cons b items ih =>
      rw [List.map_cons, List.sum_cons, ih, List.filter_cons]
      cases p b with
      | true => exact Nat.add_comm _ _
      | false => exact Nat.zero_add _

/-! ## Credits -/

/-- Numbers below a bound are counted one number after the other. -/
theorem sum_count_range {n : Nat} {numbers : List Nat} (h : ∀ i ∈ numbers, i < n) :
    ((List.range n).map numbers.count).sum = numbers.length := by
  have hsum := Multiset.sum_count_eq_card (s := Finset.range n) (m := (numbers : Multiset Nat))
    fun i hi => Finset.mem_range.mpr (h i hi)
  simp only [Finset.sum, Finset.range_val, Multiset.range, Multiset.map_coe, Multiset.sum_coe,
    Multiset.coe_count, Multiset.coe_card] at hsum
  exact hsum

/-- Each value is the tally of its number among the credits, and no other
number is credited. -/
def Scored (credits : List Nat) (values : List (Option α)) : Prop :=
  ∀ i, values[i]?.join = tally (credits.count i)

namespace Scored

variable {credits : List Nat} {values : List (Option α)}

theorem value_eq (h : Scored credits values) {i : Nat} {value : Option α}
    (hvalue : values[i]? = some value) : value = tally (credits.count i) := by
  rw [← h i, hvalue]
  rfl

theorem lt_length (h : Scored credits values) {i : Nat} (hi : i ∈ credits) : i < values.length := by
  by_contra hge
  have hvalue := h i
  rw [List.getElem?_eq_none (Nat.le_of_not_lt hge)] at hvalue
  obtain ⟨n, hn⟩ := Nat.exists_eq_succ_of_ne_zero (List.count_pos_iff.mpr hi).ne'
  rw [hn] at hvalue
  cases hvalue

/-- A new place has no credits. -/
theorem opened (h : Scored credits values) : Scored credits (values ++ [none]) := by
  intro i
  rw [← h i, List.getElem?_append]
  split
  next => rfl
  next hge =>
      rw [List.getElem?_eq_none (Nat.le_of_not_lt hge)]
      cases i - values.length <;> rfl

/-- Where a unit is credited several times, its value is a tally of as many
more. -/
theorem credited {before after : List (Option α)} {value value' : Option α} {k : Nat}
    (h : Scored credits (before ++ value :: after))
    (hvalue : ∀ n, value = tally n → value' = tally (n + k)) :
    Scored (credits ++ List.replicate k before.length) (before ++ value' :: after) := by
  intro i
  have hold := h i
  rw [List.count_append, List.count_replicate]
  by_cases hi : i = before.length
  · subst hi
    rw [List.getElem?_append_right (le_refl _), Nat.sub_self] at hold ⊢
    rw [beq_self_eq_true, if_pos rfl]
    exact hvalue _ hold
  · have hother : (before.length == i) = false := beq_eq_false_iff_ne.mpr (Ne.symm hi)
    rw [hother, if_neg Bool.false_ne_true, Nat.add_zero, ← hold, List.getElem?_append,
      List.getElem?_append]
    split
    next => rfl
    next hge =>
        obtain ⟨j, hj⟩ := Nat.exists_eq_succ_of_ne_zero (Nat.sub_ne_zero_of_lt
          (Nat.lt_of_le_of_ne (Nat.le_of_not_lt hge) (Ne.symm hi)))
        rw [hj]
        rfl

/-- In exact amounts the values add up to the number of credits. -/
theorem sum_eq [LinearOrder α] [ExactCount α] (h : Scored credits values) :
    (values.map (·.getD 0)).sum = ofCount credits.length := by
  have hvalues : (List.range values.length).map (fun i => values[i]?.join) = values := by
    refine List.ext_getElem (by rw [List.length_map, List.length_range]) fun i _ hi => ?_
    rw [List.getElem_map, List.getElem_range, List.getElem?_eq_getElem hi]
    rfl
  have hsum := ExactCount.sum_tally fun i (_ : i ∈ List.range values.length) => h i
  rw [hvalues, sum_count_range fun i hi => h.lt_length hi] at hsum
  exact hsum

end Scored
end SourceMetrics
