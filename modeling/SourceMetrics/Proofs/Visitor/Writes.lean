/-
# What writes come to

The writes of one call are carried out in order on the open unit.  Metric by
metric, what they make of a unit is a fold over the writes
(`VisitorContext.value?_applyAll`), and nothing where the visitor does not
own the metric; the lines they mark are added to those of the file
(`VisitorContext.mem_applyAll`).  Remarks have no part in either, so that
only the effects of the writes count.
-/
import SourceMetrics.Visitor.Context

namespace SourceMetrics

namespace Write

variable {α : Type}

/-- The value of a metric after a write to a unit on which it may be
written. -/
def revise [Amount α] (m : Metric) (value : Option α) : Write α → Option α
  | .add k x => if k = m then some (value.getD 0 + x) else value
  | .set k x => if k = m then some x else value
  | .markNoSonar _ | .remark _ => value

def isRemark : Write α → Bool
  | .remark _ => true
  | .add .. | .set .. | .markNoSonar _ => false

/-- The writes without the remarks among them. -/
def effects (ws : List (Write α)) : List (Write α) := ws.filter (!·.isRemark)

theorem foldl_revise_effects [Amount α] (m : Metric) (ws : List (Write α)) (value : Option α) :
    (effects ws).foldl (revise m) value = ws.foldl (revise m) value := by
  induction ws generalizing value with
  | nil => rfl
  | cons w ws ih =>
      rw [effects, List.filter_cons, List.foldl_cons, ← ih]
      cases w <;> rfl

theorem mark_mem_effects {line : Nat} {ws : List (Write α)} :
    .markNoSonar line ∈ effects ws ↔ .markNoSonar line ∈ ws := by
  rw [effects, List.mem_filter]
  exact and_iff_left rfl

end Write

namespace VisitorContext

variable {α : Type} [Amount α]

theorem owned_apply (c : VisitorContext α) (w : Write α) : (c.apply w).owned = c.owned := by
  cases w with
  | add m x =>
      rw [apply]
      split <;> rfl
  | set m x =>
      rw [apply]
      split <;> rfl
  | markNoSonar line => rfl
  | remark r => rfl

/-- A write changes the value of a metric only where the visitor owns it. -/
theorem value?_apply (c : VisitorContext α) (w : Write α) (m : Metric) :
    (c.apply w).own.value? m =
      if c.owned.contains m then w.revise m (c.own.value? m) else c.own.value? m := by
  cases w with
  | add k x =>
      rw [apply, owns, Write.revise]
      by_cases hk : k = m
      · subst hk
        by_cases ho : c.owned.contains k = true
        · rw [if_pos ho, if_pos ho, if_pos rfl, Measures.value?_add, if_pos rfl]
          rfl
        · rw [if_neg ho, if_neg ho]
          rfl
      · rw [if_neg hk, ite_self]
        split
        · rw [Measures.value?_add, if_neg hk]
        · rfl
  | set k x =>
      rw [apply, owns, Write.revise]
      by_cases hk : k = m
      · subst hk
        by_cases ho : c.owned.contains k = true
        · rw [if_pos ho, if_pos ho, if_pos rfl, Measures.value?_set, if_pos rfl]
        · rw [if_neg ho, if_neg ho]
          rfl
      · rw [if_neg hk, ite_self]
        split
        · rw [Measures.value?_set, if_neg hk]
        · rfl
  | markNoSonar line => exact (ite_self _).symm
  | remark r => exact (ite_self _).symm

/-- Metric by metric, writes are a fold where the visitor owns the metric,
and nothing elsewhere. -/
theorem value?_applyAll (c : VisitorContext α) (ws : List (Write α)) (m : Metric) :
    (c.applyAll ws).own.value? m =
      if c.owned.contains m then ws.foldl (Write.revise m) (c.own.value? m)
      else c.own.value? m := by
  induction ws generalizing c with
  | nil => exact (ite_self _).symm
  | cons w ws ih =>
      have hrest := ih (c.apply w)
      rw [owned_apply, value?_apply] at hrest
      rw [applyAll, List.foldl_cons]
      refine hrest.trans ?_
      split
      · rfl
      · rfl

/-- Where lines are collected, those that are marked are added. -/
theorem mem_applyAll (c : VisitorContext α) (ws : List (Write α)) {lines : LineSet}
    (h : c.noSonarLines = some lines) :
    ∃ after, (c.applyAll ws).noSonarLines = some after ∧
      ∀ line, line ∈ after ↔ line ∈ lines ∨ .markNoSonar line ∈ ws := by
  induction ws generalizing c lines with
  | nil =>
      refine ⟨lines, h, fun line => ?_⟩
      simp only [List.not_mem_nil, or_false]
  | cons w ws ih =>
      have hstep : ∃ lines', (c.apply w).noSonarLines = some lines' ∧
          ∀ line, line ∈ lines' ↔ line ∈ lines ∨ .markNoSonar line = w := by
        cases w with
        | add m x =>
            refine ⟨lines, ?_, fun line => by simp only [reduceCtorEq, or_false]⟩
            rw [apply]
            split <;> exact h
        | set m x =>
            refine ⟨lines, ?_, fun line => by simp only [reduceCtorEq, or_false]⟩
            rw [apply]
            split <;> exact h
        | markNoSonar l =>
            refine ⟨lines.insert l, ?_, fun line => ?_⟩
            · rw [apply, h]
              rfl
            · rw [LineSet.mem_insert, Write.markNoSonar.injEq, or_comm]
        | remark r => exact ⟨lines, h, fun line => by simp only [reduceCtorEq, or_false]⟩
      obtain ⟨lines', h', hlines'⟩ := hstep
      obtain ⟨after, hafter, hmem⟩ := ih (c.apply w) h'
      refine ⟨after, hafter, fun line => ?_⟩
      rw [hmem, hlines', List.mem_cons, or_assoc]

end VisitorContext
end SourceMetrics
