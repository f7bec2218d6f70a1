/-
# Visitors that add without looking at the unit

What a unit comes to is a matter of the units there are as soon as a visitor
overwrites a value, or adds more to one unit than it would to another.
A visitor adds blindly (`Visitor.AddsBlindly`) when it does neither: it
never sets a metric it owns, and what it adds and has in mind afterwards is
the same in every unit of the file.  What it has in mind need only be the
same as far as it matters to later additions; `reads` says how far.

The writes of such a visitor to one metric come to the amounts added
together (`foldl_revise_eq_merge`), so that they are taken together with a
value from before like any other value.
-/
import SourceMetrics.Proofs.Metric.Totals
import SourceMetrics.Proofs.Visitor.Reset
import SourceMetrics.Proofs.Visitor.Writes

namespace SourceMetrics

variable {σ α κ : Type}

/-! ## The amounts added -/

namespace Write

/-- The amount a write adds to a metric. -/
def amount? (m : Metric) : Write α → Option α
  | .add k x => if k = m then some x else none
  | .set .. | .markNoSonar _ | .remark _ => none

/-- The amounts that writes add to a metric, one by one. -/
def amounts (m : Metric) (ws : List (Write α)) : List α := ws.filterMap (amount? m)

/-- The amounts that writes add to a metric, added together. -/
def added [Amount α] (m : Metric) (ws : List (Write α)) : Option α :=
  combine (· + ·) ((amounts m ws).map some)

variable [Amount α]

theorem added_cons (m : Metric) (w : Write α) (ws : List (Write α)) :
    added m (w :: ws) = Option.merge (· + ·) (w.amount? m) (added m ws) := by
  rw [added, amounts, List.filterMap_cons]
  cases w.amount? m with
  | none => exact Option.merge_none_left.symm
  | some x => rfl

variable [LinearOrder α] [ExactAmount α]

/-- A write that does not set a metric adds its amount to it. -/
theorem revise_eq_merge {m : Metric} {w : Write α} (hset : ∀ x, w ≠ .set m x) (value : Option α) :
    w.revise m value = Option.merge (· + ·) value (w.amount? m) := by
  cases w with
  | add k x =>
      rw [revise, amount?]
      split
      · cases value with
        | none => exact congrArg some (ExactAmount.zero_add x)
        | some y => rfl
      · exact Option.merge_none_right.symm
  | set k x =>
      have hne : k ≠ m := fun heq => hset x (heq ▸ rfl)
      rw [revise, if_neg hne, amount?, Option.merge_none_right]
  | markNoSonar line => exact Option.merge_none_right.symm
  | remark r => exact Option.merge_none_right.symm

/-- Writes that do not set a metric add their amounts to it. -/
theorem foldl_revise_eq_merge {m : Metric} {ws : List (Write α)} (hset : ∀ x, .set m x ∉ ws)
    (value : Option α) :
    ws.foldl (revise m) value = Option.merge (· + ·) value (added m ws) := by
  induction ws generalizing value with
  | nil => exact Option.merge_none_right.symm
  | cons w ws ih =>
      have hfirst : ∀ x, w ≠ .set m x := fun x heq => hset x (heq ▸ List.mem_cons_self)
      have hrest : ∀ x, .set m x ∉ ws := fun x hmem => hset x (List.mem_cons_of_mem w hmem)
      rw [List.foldl_cons, ih hrest, revise_eq_merge hfirst, added_cons]
      exact Std.Associative.assoc value (w.amount? m) (added m ws)

end Write

/-! ## Visitors -/

namespace Visitor

/-- The visitor never overwrites a metric it owns, and what it adds to one
is the same in every unit of a file. -/
structure AddsBlindly (v : Visitor σ α) (reads : σ → κ) : Prop where
  adds : ∀ (hook : Hook) (n : Node) (memory : σ) (view : UnitView α) (m : Metric) (x : α),
    m ∈ v.metrics → .set m x ∉ ((hook.question n : Engine.Question σ α) v memory view).2
  blind : ∀ (hook : Hook) (n : Node) (memory memory' : σ) (view view' : UnitView α),
    reads memory = reads memory' → view.file = view'.file →
    reads ((hook.question n : Engine.Question σ α) v memory view).1 =
        reads ((hook.question n : Engine.Question σ α) v memory' view').1 ∧
      ∀ m ∈ v.metrics,
        Write.amounts m ((hook.question n : Engine.Question σ α) v memory view).2 =
          Write.amounts m ((hook.question n : Engine.Question σ α) v memory' view').2

/-- Comments are counted by adding. -/
theorem set_not_mem_commentWrites [Amount α] (analyser : CommentAnalyser) (options : CommentOptions)
    (seenCode : Bool) (n : Node) (t : Token) (m : Metric) (x : α) :
    .set m x ∉ commentWrites analyser options seenCode n t := by
  rw [commentWrites, List.mem_append, not_or]
  constructor
  · split <;> simp
  · split <;> simp [Write.increment]

/-- The visitors that come with the scanner never set a metric. -/
theorem BuiltIn.set_not_mem [Amount α] {v : Visitor FileMemory α} (h : BuiltIn v) (hook : Hook)
    (n : Node) (memory : FileMemory) (view : UnitView α) (m : Metric) (x : α) :
    .set m x ∉ ((hook.question n : Engine.Question FileMemory α) v memory view).2 := by
  cases h with
  | counter metric nodeTypes =>
      cases hook with
      | node => simp [Hook.question, Visitor.counter, Write.increment]
      | token => cases htoken : n.token <;> simp [Hook.question, htoken, Visitor.counter, silent]
      | file | leave | leaveFile => exact List.not_mem_nil
  | lines metric =>
      cases hook with
      | file => simp [Hook.question, Visitor.lines]
      | token => cases htoken : n.token <;> simp [Hook.question, htoken, Visitor.lines, silent]
      | node | leave | leaveFile => exact List.not_mem_nil
  | linesOfCode metric =>
      cases hook with
      | token =>
          cases htoken : n.token with
          | none => simp [Hook.question, htoken]
          | some t => simp [Hook.question, htoken, Visitor.linesOfCode, Write.increment]
      | file | node | leave | leaveFile => exact List.not_mem_nil
  | comments analyser options =>
      cases hook with
      | token =>
          cases htoken : n.token with
          | none => simp [Hook.question, htoken]
          | some t =>
              simp only [Hook.question, htoken, Visitor.comments]
              split
              · exact set_not_mem_commentWrites analyser options memory.seenCode n t m x
              · exact List.not_mem_nil
      | file | node | leave | leaveFile => exact List.not_mem_nil

/-- The visitors that come with the scanner add blindly. -/
theorem BuiltIn.addsBlindly [Amount α] {v : Visitor FileMemory α} (h : BuiltIn v) :
    v.AddsBlindly id where
  adds hook n memory view m x _ := h.set_not_mem hook n memory view m x
  blind hook n memory memory' view view' hreads _ := by
    obtain rfl : memory = memory' := hreads
    rw [h.blind hook n memory view view']
    exact ⟨rfl, fun _ _ => rfl⟩

end Visitor
end SourceMetrics
