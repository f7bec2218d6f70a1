/-
# Exact amounts that count

Exact amounts add up in any order.  Where a count as an amount is so many
ones added up (`ExactCount`), counts compare as numbers do
(`ofCount_le_ofCount`), and adding one several times over adds the count.
-/
import Mathlib.Algebra.BigOperators.Group.List.Basic
import SourceMetrics.Proofs.Metric.Totals

namespace SourceMetrics

variable {α : Type} [Amount α] [LinearOrder α]

/-- Exact amounts under addition. -/
abbrev ExactAmount.addCommMonoid [ExactAmount α] : AddCommMonoid α where
  add := (· + ·)
  add_assoc := ExactAmount.add_assoc
  zero := 0
  zero_add := ExactAmount.zero_add
  add_zero := ExactAmount.add_zero
  nsmul := nsmulRec
  add_comm := ExactAmount.add_comm

theorem ExactAmount.sum_eq_of_perm [ExactAmount α] {xs ys : List α} (h : xs.Perm ys) :
    xs.sum = ys.sum :=
  @List.Perm.sum_eq α ExactAmount.addCommMonoid xs ys h

/-- Units without a value add nothing. -/
theorem ExactAmount.sum_eq_zero [ExactAmount α] {values : List (Option α)}
    (h : ∀ value ∈ values, value = none) : (values.map (·.getD 0)).sum = 0 := by
  induction values with
  | nil => rfl
  | cons value values ih =>
      obtain rfl := h value List.mem_cons_self
      rw [List.map_cons, List.sum_cons, ih fun value hvalue => h value (List.mem_cons_of_mem _ hvalue)]
      exact ExactAmount.add_zero 0

/-- Exact amounts in which a count is so many ones added up. -/
class ExactCount (α : Type) [Amount α] [LinearOrder α] : Prop extends ExactAmount α where
  ofCount_zero : Amount.ofCount 0 = (0 : α)
  ofCount_succ : ∀ n, Amount.ofCount (n + 1) = Amount.ofCount n + (1 : α)
  le_add_one : ∀ a : α, a ≤ a + 1

instance : ExactCount Nat where
  ofCount_zero := rfl
  ofCount_succ _ := rfl
  le_add_one := Nat.le_succ

namespace ExactCount

variable [ExactCount α]

theorem ofCount_add (m n : Nat) :
    (Amount.ofCount (m + n) : α) = Amount.ofCount m + Amount.ofCount n := by
  induction n with
  | zero => rw [Nat.add_zero, ofCount_zero, ExactAmount.add_zero]
  | succ n ih => rw [← Nat.add_assoc, ofCount_succ, ofCount_succ, ih, ExactAmount.add_assoc]

theorem ofCount_le_ofCount {m n : Nat} (h : m ≤ n) :
    (Amount.ofCount m : α) ≤ Amount.ofCount n := by
  induction h with
  | refl => exact le_refl _
  | step _ ih =>
      rw [ofCount_succ]
      exact ih.trans (le_add_one _)

end ExactCount
end SourceMetrics
