/-
# Visitors that keep to themselves

A visitor that is called sees the open unit with the values of all metrics,
those of other visitors among them.  It is local (`Visitor.Local`) when its
answers make no use of the latter: given its state and the node, what it
does rests on the kind and key of the unit, on the file, and on the values
of the metrics it owns.  Remarks are left out, since they reach the
session's record alone.

Nothing is asked of what a local visitor writes: it may try to write metrics
of others.
-/
import SourceMetrics.Proofs.Visitor.Reset
import SourceMetrics.Proofs.Visitor.Writes

namespace SourceMetrics

variable {σ α : Type}

/-- Two views show the same unit of the same file, with the same values of
the given metrics. -/
structure UnitView.Agree (ms : List Metric) (view view' : UnitView α) : Prop where
  unitKind : view.unitKind = view'.unitKind
  unitKey : view.unitKey = view'.unitKey
  file : view.file = view'.file
  current : ∀ m ∈ ms, view.current m = view'.current m

/-- Two answers lead to the same state and come to the same writes, remarks
left out. -/
def Answer.Alike (answer answer' : Answer σ α) : Prop :=
  answer.1 = answer'.1 ∧ Write.effects answer.2 = Write.effects answer'.2

namespace Visitor

/-- The visitor answers alike where its state, the node and what it may look
at are the same. -/
def Local (v : Visitor σ α) : Prop :=
  ∀ (hook : Hook) (n : Node) (memory : σ) (view view' : UnitView α), view.Agree v.metrics view' →
    Answer.Alike ((hook.question n : Engine.Question σ α) v memory view)
      ((hook.question n : Engine.Question σ α) v memory view')

/-- A visitor that never looks at the unit is local. -/
theorem local_of_blind {v : Visitor σ α}
    (h : ∀ (hook : Hook) (n : Node) (memory : σ) (view view' : UnitView α),
      (hook.question n : Engine.Question σ α) v memory view =
        (hook.question n : Engine.Question σ α) v memory view') : v.Local := by
  intro hook n memory view view' _
  rw [h hook n memory view view']
  exact ⟨rfl, rfl⟩

/-- The visitors that come with the scanner never look at the unit. -/
theorem BuiltIn.isLocal [Amount α] {v : Visitor FileMemory α} (h : BuiltIn v) : v.Local :=
  local_of_blind h.blind

end Visitor
end SourceMetrics
