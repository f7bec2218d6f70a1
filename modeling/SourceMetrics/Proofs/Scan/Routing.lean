/-
# Calls through the plan

A plan spares a pass the question that it would else put to every visitor at
every node: does this visitor want to see a node of this kind?  Here the answer
through the table is held against that question.

    visitors           0: [if, return, if]     1: [if, &&]     2: tokens
    in the table       if ▸ 0, 1    return ▸ 0    && ▸ 1    tokens ▸ 2
    any other kind     nobody

A route is what the question leads to, visitor by visitor (`IsRoute`): strictly
increasing positions, of just the visitors that want the call.  Going through a
route calls the same visitors in the same order as asking all of them
(`Engine.callEach_positionsWhere`), whatever the hook and whatever comes of the
calls, faults included.
-/
import SourceMetrics.Proofs.Visitor.Plan
import SourceMetrics.Scan.Traversal
import SourceMetrics.Visitor.Counter
import SourceMetrics.Visitor.LinesOfCode

namespace SourceMetrics

/-! ## Routes -/

namespace DispatchPlan

variable {σ α : Type}

/-- The positions are those of the visitors that want something, each once and
in the order of the visitors. -/
structure IsRoute (visitors : List (Visitor σ α)) (wants : Visitor σ α → Prop)
    (positions : List Nat) : Prop where
  increasing : positions.Pairwise (· < ·)
  mem_iff : ∀ i, i ∈ positions ↔ ∃ v, visitors[i]? = some v ∧ wants v

theorem pairwise_positionsWhere (f : Visitor σ α → Bool) (position : Nat)
    (visitors : List (Visitor σ α)) : (positionsWhere f position visitors).Pairwise (· < ·) := by
  induction visitors generalizing position with
  | nil => exact List.Pairwise.nil
  | cons v rest ih =>
      have hrest := ih (position + 1)
      rw [positionsWhere]
      split
      · refine List.pairwise_cons.mpr ⟨fun q hq => ?_, hrest⟩
        exact le_of_mem_positionsWhere hq
      · exact hrest

theorem isRoute_positionsWhere {f : Visitor σ α → Bool} {wants : Visitor σ α → Prop}
    (hwants : ∀ v, f v = true ↔ wants v) (visitors : List (Visitor σ α)) :
    IsRoute visitors wants (positionsWhere f 0 visitors) := by
  refine ⟨pairwise_positionsWhere f 0 visitors, fun i => ?_⟩
  rw [mem_positionsWhere]
  constructor
  · rintro ⟨j, v, rfl, hv, hf⟩
    rw [Nat.zero_add]
    exact ⟨v, hv, (hwants v).mp hf⟩
  · rintro ⟨v, hv, hw⟩
    exact ⟨i, v, (Nat.zero_add i).symm, hv, (hwants v).mpr hw⟩

end DispatchPlan

/-! ## Calls -/

namespace Engine

variable {σ α : Type} [Amount α]

/-- Asks visitors one after the other, the first at the given position, whether
they want a call, and calls those that do. -/
def askInTurn (e : Engine σ α) (file : String) (ask : Question σ α) (wants : Visitor σ α → Bool)
    (position : Nat) : List (Visitor σ α) → ScanState σ α → Except ScanError (ScanState σ α)
  | [], s => .ok s
  | v :: rest, s =>
    if wants v then
      match e.call file ask s position with
      | .error err => .error err
      | .ok s => e.askInTurn file ask wants (position + 1) rest s
    else e.askInTurn file ask wants (position + 1) rest s

theorem callEach_positionsWhere (e : Engine σ α) (file : String) (ask : Question σ α)
    (wants : Visitor σ α → Bool) (position : Nat) (visitors : List (Visitor σ α))
    (s : ScanState σ α) :
    e.callEach file ask (DispatchPlan.positionsWhere wants position visitors) s =
      e.askInTurn file ask wants position visitors s := by
  induction visitors generalizing position s with
  | nil => rfl
  | cons v rest ih =>
      rw [DispatchPlan.positionsWhere, askInTurn]
      cases wants v with
      | false => exact ih (position + 1) s
      | true =>
          show e.callEach file ask (position :: _) s = _
          rw [callEach, if_pos rfl]
          cases e.call file ask s position with
          | error err => rfl
          | ok s' => exact ih (position + 1) s'

end Engine

namespace DispatchPlan

variable {σ α : Type} [Amount α]

/-- In an accepted plan the visitors routed to for a kind of node are those that
list the kind, however often they do and whether or not the grammar knows it, and
those routed to for tokens are those that observe them, each visitor once and in
order; and every visitor owns the metrics it declares.  In whatever order the
kinds that a visitor lists are entered once each, the routes are the same.  To go
through a route is to ask each visitor in turn and call those that want to be
called, with the same outcome in any state, for any hook. -/
theorem build_calls_in_turn {registry : MetricRegistry α} {visitors : List (Visitor σ α)}
    {plan : DispatchPlan} (h : build registry visitors = .ok plan) :
    (∀ kind, IsRoute visitors (kind ∈ ·.nodeTypes) (plan.subscribers kind)) ∧
    IsRoute visitors (·.observesTokens = true) plan.tokenObservers ∧
    plan.owned.length = visitors.length ∧
    (∀ i v, visitors[i]? = some v → plan.ownedBy i = v.metrics) ∧
    (∀ sets, List.Forall₂ ListsOnce visitors sets → ∀ kind,
      positionsOf kind (tabulate 0 [] sets) = plan.subscribers kind) ∧
    ∀ (e : Engine σ α) (file : String) (ask : Engine.Question σ α) (s : ScanState σ α),
      (∀ kind, e.callEach file ask (plan.subscribers kind) s =
        e.askInTurn file ask (·.nodeTypes.contains kind) 0 visitors s) ∧
      e.callEach file ask plan.tokenObservers s =
        e.askInTurn file ask (·.observesTokens) 0 visitors s := by
  obtain ⟨-, -, rfl⟩ := (build_eq_ok_iff registry visitors plan).mp h
  have hkinds : ∀ kind, (empty.routes 0 visitors).subscribers kind =
      positionsWhere (·.nodeTypes.contains kind) 0 visitors :=
    fun kind => subscribers_routes empty 0 visitors kind
  have htokens : (empty.routes 0 visitors).tokenObservers =
      positionsWhere (·.observesTokens) 0 visitors := tokenObservers_routes empty 0 visitors
  refine ⟨fun kind => ?_, ?_, ?_, fun i v hv => ownedBy_routes hv, fun sets hsets kind => ?_,
    fun e file ask s => ⟨fun kind => ?_, ?_⟩⟩
  · rw [hkinds]
    exact isRoute_positionsWhere (fun v => List.contains_iff_mem) visitors
  · rw [htokens]
    exact isRoute_positionsWhere (fun v => Iff.rfl) visitors
  · rw [owned_routes, empty, List.nil_append, List.length_map]
  · rw [hkinds]
    exact positionsOf_tabulate hsets kind 0 []
  · rw [hkinds]
    exact e.callEach_positionsWhere file ask _ 0 visitors s
  · rw [htokens]
    exact e.callEach_positionsWhere file ask _ 0 visitors s

/-- Two visitors with a kind in common, which one lists twice, and one that
observes tokens. -/
def overlapping : List (Visitor FileMemory Nat) :=
  [.counter Metric.statements ["if", "return", "if"], .counter Metric.complexity ["if", "&&"],
    .linesOfCode Metric.linesOfCode]

theorem build_calls_in_turn_overlapping :
    ∃ plan, build ⟨MetricDefinition.standard⟩ overlapping = .ok plan ∧
      plan.subscribers "if" = [0, 1] ∧ plan.subscribers "unheard of" = [] ∧
      IsRoute overlapping ("if" ∈ ·.nodeTypes) (plan.subscribers "if") ∧
      IsRoute overlapping ("unheard of" ∈ ·.nodeTypes) (plan.subscribers "unheard of") ∧
      IsRoute overlapping (·.observesTokens = true) [2] ∧
      plan.ownedBy 1 = [Metric.complexity] ∧
      positionsOf "if" (tabulate 0 [] [["return", "if"], ["&&", "if"], []]) = [0, 1] := by
  have hbuild : build ⟨MetricDefinition.standard⟩ overlapping =
      .ok (empty.routes 0 overlapping) := by decide +kernel
  obtain ⟨hkinds, htokens, -, howned, hsets, -⟩ := build_calls_in_turn hbuild
  have honce : List.Forall₂ ListsOnce overlapping [["return", "if"], ["&&", "if"], []] := by
    refine .cons ⟨by decide, fun kind => ?_⟩ (.cons ⟨by decide, fun kind => ?_⟩
      (.cons ⟨by decide, fun kind => Iff.rfl⟩ .nil))
    · show kind ∈ ["return", "if"] ↔ kind ∈ ["if", "return", "if"]
      simp only [List.mem_cons, List.not_mem_nil, or_false]
      tauto
    · show kind ∈ ["&&", "if"] ↔ kind ∈ ["if", "&&"]
      simp only [List.mem_cons, List.not_mem_nil, or_false]
      exact or_comm
  have hif : (empty.routes 0 overlapping).subscribers "if" = [0, 1] := by decide +kernel
  refine ⟨_, hbuild, hif, by decide +kernel, hkinds "if", hkinds "unheard of", htokens,
    howned 1 _ rfl, ?_⟩
  rw [hsets _ honce, hif]

end DispatchPlan
end SourceMetrics
