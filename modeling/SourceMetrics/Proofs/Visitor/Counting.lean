/-
# Visitors that count

A visitor counts (`Visitor.Counts`) when it has something to say at one hook
alone, on entry of a node, and all it ever does there is to add ones to a
metric.  How many, and what it keeps in mind, goes by the node and by what it
has in mind already; it begins every file with the same.

Such a visitor is a function of the nodes it is called for.  Each one it adds
is a credit of the unit that the node falls to, and `credits` lists these
from the nodes alone:

    nodes      n₀ in 0,   n₁ in 0,   n₂ in 1
    mind       start  →   μ₁     →   μ₂
    ones       1          0          2
    credits    0                     1 1

On every unit of a file the own value of the metric is the tally of the
credits of that unit, whatever other visitors there are (`traverse_scores`).
A counter of nodes is the plainest case (`traverse_scores_counter`).
-/
import SourceMetrics.JavaScript.Scanner
import SourceMetrics.Proofs.Metric.Tally
import SourceMetrics.Proofs.Scan.Values

namespace SourceMetrics

variable {σ α : Type}

/-! ## The nodes told of at a hook -/

/-- The nodes of the calls of one hook. -/
def told (hook : Hook) (calls : List PlacedCall) : List PlacedNode :=
  calls.filterMap fun c => if c.hook = hook then some ⟨c.unit, c.node⟩ else none

theorem told_append (hook : Hook) (calls calls' : List PlacedCall) :
    told hook (calls ++ calls') = told hook calls ++ told hook calls' :=
  List.filterMap_append

theorem told_singleton (hook : Hook) (c : PlacedCall) :
    told hook [c] = if c.hook = hook then [⟨c.unit, c.node⟩] else [] := by
  rw [told, List.filterMap_cons]
  by_cases h : c.hook = hook
  · simp only [h, if_true, List.filterMap_nil]
  · simp only [h, if_false, List.filterMap_nil]

/-- The first visitor is told of the calls for its position. -/
theorem told_callsFor_first (hook other : Hook) (p : Places) (n : Node) (within : List UnitSpec) :
    told hook (heardFrom p (callsFor other [0] n within)) =
      if other = hook then [⟨p.here, n⟩] else [] :=
  told_singleton hook ⟨p.here, other, n⟩

namespace Visitor

/-- Whether a visitor is called at a hook on entry of a node. -/
def hears (v : Visitor σ α) (n : Node) : Hook → Bool
  | .token => v.observesTokens && n.token.isSome
  | .node => v.nodeTypes.contains n.kind
  | .file | .leave | .leaveFile => false

end Visitor

namespace Engine

section
variable {e : Engine σ α} {v : Visitor σ α}

theorem Alone.tokenObservers (h : e.Alone v) :
    e.plan.tokenObservers = if v.observesTokens then [0] else [] := by
  rw [h.routes, DispatchPlan.tokenObservers_routes]
  exact List.append_nil _

theorem Alone.subscribers (h : e.Alone v) (kind : String) :
    e.plan.subscribers kind = if v.nodeTypes.contains kind then [0] else [] := by
  rw [h.routes, DispatchPlan.subscribers_routes]
  exact List.append_nil _

theorem Alone.told_tokenCalls (h : e.Alone v) (hook : Hook) (p : Places) (n : Node)
    (within : List UnitSpec) :
    told hook (heardFrom p
        (if n.token.isSome then callsFor .token e.plan.tokenObservers n within else [])) =
      if v.hears n .token ∧ .token = hook then [⟨p.here, n⟩] else [] := by
  rw [h.tokenObservers, Visitor.hears]
  cases n.token.isSome
  · simp only [Bool.false_eq_true, if_false, Bool.and_false, false_and]
    rfl
  · cases v.observesTokens
    · rfl
    · cases hook <;> rfl

theorem Alone.told_nodeCalls (h : e.Alone v) (hook other : Hook) (p : Places) (n : Node)
    (within : List UnitSpec) :
    told hook (heardFrom p (callsFor other (e.plan.subscribers n.kind) n within)) =
      if v.hears n .node ∧ other = hook then [⟨p.here, n⟩] else [] := by
  rw [h.subscribers, Visitor.hears]
  cases v.nodeTypes.contains n.kind
  · rfl
  · rw [if_pos rfl, told_callsFor_first]
    simp only [true_and]

/-- On entry of a node a visitor is called as far as it hears of it. -/
theorem Alone.told_entryCalls (h : e.Alone v) {hook : Hook} (hentry : hook = .token ∨ hook = .node)
    (p : Places) (n : Node) (within : List UnitSpec) :
    told hook (heardFrom p (e.plan.entryCalls n within)) =
      if v.hears n hook then [⟨p.here, n⟩] else [] := by
  have hplace : p.afterAll
      (if n.token.isSome then callsFor .token e.plan.tokenObservers n within else []) = p := by
    split
    · exact p.afterAll_callsFor _ _ n within
    · rfl
  rw [DispatchPlan.entryCalls, heardFrom_append, told_append, hplace, h.told_tokenCalls,
    h.told_nodeCalls]
  rcases hentry with rfl | rfl
  · simp only [and_true, reduceCtorEq, and_false, if_false, List.append_nil]
  · simp only [and_true, reduceCtorEq, and_false, if_false, List.nil_append]

theorem Alone.told_exitCalls (h : e.Alone v) {hook : Hook} (hentry : hook = .token ∨ hook = .node)
    (p : Places) (n : Node) (within : List UnitSpec) :
    told hook (heardFrom p (e.plan.exitCalls n within)) = [] := by
  rw [DispatchPlan.exitCalls, h.told_nodeCalls]
  rcases hentry with rfl | rfl
  · simp only [reduceCtorEq, and_false, if_false]
  · simp only [reduceCtorEq, and_false, if_false]

mutual
/-- In a tree a visitor is told of the nodes it hears of, each with the unit
it falls to. -/
theorem Alone.told_acts (h : e.Alone v) {hook : Hook} (hentry : hook = .token ∨ hook = .node)
    (p : Places) :
    ∀ (m : Marked) (within : List UnitSpec),
      told hook (heardFrom p (m.acts e.plan within)) =
        (m.hosted p.here p.count).filter fun c => v.hears c.node hook
  | ⟨n, some unit, children⟩, within => by
      have hopening : told hook (heardFrom p [.opening unit]) = [] := rfl
      have hclosing : ∀ q : Places, told hook (heardFrom q [.closing]) = [] := fun _ => rfl
      have hplace : p.afterAll [.opening unit] = ⟨p.count :: p.within, p.count + 1⟩ := rfl
      rw [Marked.acts, Marked.hosted, List.filter_cons]
      simp only [heardFrom_append, told_append, Places.afterAll_append,
        Places.afterAll_entryCalls, hopening, hclosing, hplace, h.told_entryCalls hentry,
        h.told_exitCalls hentry, h.told_actsList hentry _ children, List.append_nil,
        List.nil_append]
      split <;> rfl
  | ⟨n, none, children⟩, within => by
      rw [Marked.acts, Marked.hosted, List.filter_cons]
      simp only [heardFrom_append, told_append, Places.afterAll_append,
        Places.afterAll_entryCalls, h.told_entryCalls hentry, h.told_exitCalls hentry,
        h.told_actsList hentry _ children, List.append_nil]
      split <;> rfl
theorem Alone.told_actsList (h : e.Alone v) {hook : Hook} (hentry : hook = .token ∨ hook = .node)
    (p : Places) :
    ∀ (ms : List Marked) (within : List UnitSpec),
      told hook (heardFrom p (Marked.actsList e.plan within ms)) =
        (Marked.hostedList p.here p.count ms).filter fun c => v.hears c.node hook
  | [], _ => rfl
  | m :: ms, within => by
      rw [Marked.actsList, heardFrom_append, told_append, Places.afterAll_acts,
        Marked.hostedList, List.filter_append, h.told_acts hentry p m within,
        h.told_actsList hentry _ ms within]
      rfl
end

/-- In a file a visitor is told of the nodes it hears of. -/
theorem Alone.told_schedule (h : e.Alone v) {hook : Hook} (hentry : hook = .token ∨ hook = .node)
    (file : String) (root : Node) :
    told hook (heardFrom .first (e.schedule file root)) =
      (e.hosted file root).filter fun c => v.hears c.node hook := by
  have hpositions : e.positions = [0] := by
    rw [positions, h.visitors]
    rfl
  have hother : ∀ (other : Hook) (p : Places), other ≠ hook →
      told hook (heardFrom p (callsFor other [0] root [fileSpec file root])) = [] := by
    intro other p hne
    rw [told_callsFor_first, if_neg hne]
  have hfile : Hook.file ≠ hook := by
    rcases hentry with rfl | rfl <;> intro heq <;> cases heq
  have hleaveFile : Hook.leaveFile ≠ hook := by
    rcases hentry with rfl | rfl <;> intro heq <;> cases heq
  rw [Engine.schedule, hpositions, heardFrom_append, heardFrom_append, told_append, told_append,
    hother .file _ hfile, hother .leaveFile _ hleaveFile, List.append_nil, List.nil_append,
    Places.afterAll_callsFor, h.told_acts hentry]
  rfl

end
end Engine

/-! ## Counting -/

section
variable (answer : σ → Node → σ × Nat)

/-- What is in mind after nodes. -/
def mindAfter (mind : σ) (nodes : List PlacedNode) : σ :=
  nodes.foldl (fun mind c => (answer mind c.node).1) mind

/-- The units of the nodes, each as many times as ones are added for the
node. -/
def credits (mind : σ) : List PlacedNode → List Nat
  | [] => []
  | c :: nodes =>
    List.replicate (answer mind c.node).2 c.unit ++ credits (answer mind c.node).1 nodes

theorem credits_append (mind : σ) (nodes nodes' : List PlacedNode) :
    credits answer mind (nodes ++ nodes') =
      credits answer mind nodes ++ credits answer (mindAfter answer mind nodes) nodes' := by
  induction nodes generalizing mind with
  | nil => rfl
  | cons c nodes ih =>
      rw [List.cons_append, credits, credits, ih, List.append_assoc]
      rfl

/-- Nodes that change nothing are of no account. -/
theorem credits_filter {p : Node → Bool} (h : ∀ mind n, p n = false → answer mind n = (mind, 0))
    (mind : σ) (nodes : List PlacedNode) :
    credits answer mind (nodes.filter fun c => p c.node) = credits answer mind nodes := by
  induction nodes generalizing mind with
  | nil => rfl
  | cons c nodes ih =>
      rw [List.filter_cons]
      cases hc : p c.node with
      | true => rw [if_pos rfl, credits, credits, ih]
      | false =>
          rw [if_neg Bool.false_ne_true, ih, credits, h mind c.node hc]
          rfl

end

open Amount

/-- A visitor that counts: it begins every file with `start` in mind, and is
silent except at one hook, where it answers by what it has in mind. -/
structure Visitor.Counts [Amount α] (v : Visitor σ α) (m : Metric) (hook : Hook) (start : σ)
    (answer : σ → Node → σ × Nat) : Prop where
  entry : hook = .token ∨ hook = .node
  first : ∀ (memory : σ) (n : Node) (view : UnitView α), v.visitFile memory n view = (start, [])
  recalls : ∀ (n : Node) (memory : σ) (view : UnitView α),
    ((hook.question n : Engine.Question σ α) v memory view).1 = (answer memory n).1
  adds : ∀ (n : Node) (memory : σ) (view : UnitView α) (k : Nat),
    ((hook.question n : Engine.Question σ α) v memory view).2.foldl (Write.revise m) (tally k) =
      tally (k + (answer memory n).2)
  silent : ∀ (other : Hook), other ≠ .file → other ≠ hook → ∀ (n : Node) (memory : σ)
    (view : UnitView α),
      (other.question n : Engine.Question σ α) v memory view = (memory, [])

section
variable [Amount α] {v : Visitor σ α} {m : Metric} {hook : Hook} {start : σ}
  {answer : σ → Node → σ × Nat}

/-- A visitor that counts has in mind what the nodes it was told of lead to,
and the values are scored by their credits. -/
theorem Visitor.Counts.keeps (h : v.Counts m hook start answer) (root : Node) :
    v.KeepsPlaced m root fun calls memory values =>
      memory = mindAfter answer start (told hook calls) ∧
        Scored (credits answer start (told hook calls)) values where
  first memory view := by
    have hfile : told hook [⟨0, .file, root⟩] = [] := by
      rcases h.entry with rfl | rfl
      · rfl
      · rfl
    rw [h.first, hfile]
    refine ⟨rfl, fun i => ?_⟩
    cases i <;> rfl
  opening hkept := ⟨hkept.1, hkept.2.opened⟩
  later calls other n memory view before after value hother hkept := by
    obtain ⟨hmind, hscored⟩ := hkept
    rw [told_append]
    by_cases hhook : other = hook
    · subst hhook
      rw [told_singleton, if_pos rfl, credits_append, ← hmind]
      constructor
      · rw [h.recalls, mindAfter, List.foldl_append]
        exact congrArg (fun mind => (answer mind n).1) hmind
      · have hone : credits answer memory [⟨before.length, n⟩] =
            List.replicate (answer memory n).2 before.length := List.append_nil _
        rw [hone]
        refine hscored.credited fun k hk => ?_
        rw [hk]
        exact h.adds n memory view k
    · rw [told_singleton, if_neg hhook, List.append_nil, h.silent other hother hhook]
      exact ⟨hmind, hscored⟩

/-- On every unit of a file, the own value of a metric that a visitor counts
is the tally of the credits of the unit, whatever other visitors there are. -/
theorem Engine.traverse_scores {config : ScannerConfig σ α} {registry : MetricRegistry α}
    (hsound : Sound config registry) {memories : List σ}
    (hmemories : memories.length = config.visitors.length) (hv : v ∈ config.visitors)
    (hlocal : v.Local) (hm : m ∈ v.metrics) (hcounts : v.Counts m hook start answer)
    (grammar : Grammar) (file : String) (root : Node) (events : List (Event α)) :
    ∃ tree s,
      (engineOf config grammar registry).traverse file root memories events = .ok (tree, s) ∧
      Scored (credits answer start
        (((engineOf config grammar registry).hosted file root).filter fun c => v.hears c.node hook))
        (tree.owns m) := by
  obtain ⟨i, hi⟩ := List.mem_iff_getElem?.mp hv
  have halone : (engineOf { config with visitors := [v] } grammar registry).Alone v :=
    alone_engineOf rfl grammar registry
  obtain ⟨tree, s, after, htraverse, -, -, hscored⟩ := traverse_keepsPlaced hsound hmemories hi
    hlocal hm (hcounts.keeps root) grammar file events
  rw [halone.told_schedule hcounts.entry] at hscored
  exact ⟨tree, s, htraverse, hscored⟩

end

/-! ## Counters of nodes -/

section
variable [Amount α] (metric : Metric) (nodeTypes : List String)

/-- A counter has nothing in mind and adds one for each node. -/
theorem Visitor.counts_counter :
    (counter metric nodeTypes : Visitor FileMemory α).Counts metric .node .empty
      fun memory _ => (memory, 1) where
  entry := .inr rfl
  first _ _ _ := rfl
  recalls _ _ _ := rfl
  adds _ _ _ k := Write.foldl_increment metric k 1
  silent other hfile hnode n memory view := by
    cases other with
    | file => exact absurd rfl hfile
    | node => exact absurd rfl hnode
    | token =>
        unfold Hook.question
        cases n.token <;> rfl
    | leave => rfl
    | leaveFile => rfl

theorem credits_counter (memory : FileMemory) (nodes : List PlacedNode) :
    credits (fun memory _ => (memory, 1)) memory nodes = nodes.map PlacedNode.unit := by
  induction nodes with
  | nil => rfl
  | cons c nodes ih =>
      rw [credits, ih]
      rfl

/-- On every unit of a file, what a counter counts is scored by the nodes of
its kinds. -/
theorem Engine.traverse_scores_counter {config : ScannerConfig FileMemory α}
    {registry : MetricRegistry α} (hsound : Sound config registry) {memories : List FileMemory}
    (hmemories : memories.length = config.visitors.length)
    (hv : .counter metric nodeTypes ∈ config.visitors) (grammar : Grammar) (file : String)
    (root : Node) (events : List (Event α)) :
    ∃ tree s,
      (engineOf config grammar registry).traverse file root memories events = .ok (tree, s) ∧
      Scored ((((engineOf config grammar registry).hosted file root).filter
        fun c => nodeTypes.contains c.node.kind).map PlacedNode.unit) (tree.owns metric) := by
  obtain ⟨tree, s, htraverse, hscored⟩ := traverse_scores hsound hmemories hv
    (Visitor.BuiltIn.counter metric nodeTypes).isLocal List.mem_cons_self
    (Visitor.counts_counter metric nodeTypes) grammar file root events
  rw [credits_counter] at hscored
  exact ⟨tree, s, htraverse, hscored⟩

end

/-! ## The visitors of JavaScript -/

namespace JavaScript

/-- The standard configuration, over a grammar without texts. -/
def standardEngine : Engine FileMemory Nat :=
  Engine.engineOf (config .standard [] []) Engine.sampleGrammar ⟨MetricDefinition.standard⟩

theorem build_standardEngine :
    Engine.build (config .standard [] []) Engine.sampleGrammar = .ok standardEngine := rfl

end JavaScript
end SourceMetrics
