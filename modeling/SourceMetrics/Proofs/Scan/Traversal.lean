/-
# What a pass over a file comes to

Two statements about `Engine.traverse`, both for every tree, every list of
visitors and every list of extractors.

* The calls of hooks: the loop with a stack is the walk by recursion, and
  both do the acts of the schedule, one after the other.  In the schedule
  every node of the tree gets its calls once, each node before its children,
  and it is left within the very units it was entered in.
* The units: a pass never fails, and its tree is the syntax tree contracted
  to the nodes that an extractor claims.
-/
import SourceMetrics.Proofs.Scan.Schedule

namespace SourceMetrics

/-! ## The calls in a schedule -/

/-- The calls of one hook among acts: the visitor, the node and the units. -/
def callsOf (hook : Hook) (acts : List Act) : List (Nat × Node × List UnitSpec) :=
  acts.filterMap (Act.callOf? hook)

/-- The visitors and nodes of the calls of one hook among acts. -/
def calledFor (hook : Hook) (acts : List Act) : List (Nat × Node) :=
  (callsOf hook acts).map fun call => (call.1, call.2.1)

/-- A node paired with each of several visitors. -/
def pairsFor (positions : List Nat) (n : Node) : List (Nat × Node) := positions.map (·, n)

theorem callsOf_append (hook : Hook) (as bs : List Act) :
    callsOf hook (as ++ bs) = callsOf hook as ++ callsOf hook bs :=
  List.filterMap_append

theorem calledFor_append (hook : Hook) (as bs : List Act) :
    calledFor hook (as ++ bs) = calledFor hook as ++ calledFor hook bs := by
  rw [calledFor, callsOf_append, List.map_append]
  rfl

theorem mem_calledFor {hook : Hook} {acts : List Act} {position : Nat} {node : Node} :
    (position, node) ∈ calledFor hook acts ↔
      ∃ within, .calling hook position node within ∈ acts := by
  rw [calledFor, callsOf, List.mem_map]
  constructor
  · rintro ⟨⟨p, n, within⟩, hmem, heq⟩
    obtain ⟨a, ha, hcall⟩ := List.mem_filterMap.mp hmem
    cases heq
    cases a with
    | calling h p n w =>
        rw [Act.callOf?] at hcall
        split at hcall
        next hh =>
          cases hcall
          exact ⟨within, hh ▸ ha⟩
        next => cases hcall
    | opening unit => cases hcall
    | closing => cases hcall
  · rintro ⟨within, hmem⟩
    exact ⟨(position, node, within), List.mem_filterMap.mpr ⟨_, hmem, if_pos rfl⟩, rfl⟩

theorem callsOf_callsFor (hook other : Hook) (positions : List Nat) (n : Node)
    (within : List UnitSpec) :
    callsOf hook (callsFor other positions n within) =
      if other = hook then positions.map (·, n, within) else [] := by
  induction positions with
  | nil => split <;> rfl
  | cons position rest ih =>
      show List.filterMap _ (.calling other position n within :: callsFor other rest n within) = _
      rw [List.filterMap_cons, Act.callOf?]
      by_cases h : other = hook
      · rw [if_pos h] at ih ⊢
        rw [if_pos h, List.map_cons, ← ih]
        rfl
      · rw [if_neg h] at ih ⊢
        rw [if_neg h]
        exact ih

namespace DispatchPlan

variable (plan : DispatchPlan) (n : Node) (within : List UnitSpec)

/-- The calls of a hook on entry of a node, whatever units are open. -/
def entryPairs (hook : Hook) : List (Nat × Node) := calledFor hook (plan.entryCalls n [])

theorem callsOf_entryCalls (hook : Hook) :
    callsOf hook (plan.entryCalls n within) =
      (if n.token.isSome then
        if .token = hook then plan.tokenObservers.map (·, n, within) else []
      else []) ++
        if .node = hook then (plan.subscribers n.kind).map (·, n, within) else [] := by
  rw [entryCalls, callsOf_append, callsOf_callsFor]
  congr 1
  split
  · rw [callsOf_callsFor]
  · rfl

theorem calledFor_entryCalls (hook : Hook) :
    calledFor hook (plan.entryCalls n within) = plan.entryPairs n hook := by
  simp only [entryPairs, calledFor, callsOf_entryCalls, List.map_append]
  congr 1
  · split
    · split
      · simp only [List.map_map, Function.comp_def]
      · rfl
    · rfl
  · split
    · simp only [List.map_map, Function.comp_def]
    · rfl

theorem entryPairs_token :
    plan.entryPairs n .token =
      if n.token.isSome then pairsFor plan.tokenObservers n else [] := by
  rw [entryPairs, calledFor, callsOf_entryCalls]
  simp only [if_true, reduceCtorEq, if_false, List.append_nil]
  split
  · rw [List.map_map]
    rfl
  · rfl

theorem entryPairs_node : plan.entryPairs n .node = pairsFor (plan.subscribers n.kind) n := by
  rw [entryPairs, calledFor, callsOf_entryCalls]
  simp only [if_true, reduceCtorEq, if_false, ite_self, List.nil_append, List.map_map]
  rfl

theorem entryPairs_eq_nil {hook : Hook} (htoken : hook ≠ .token) (hnode : hook ≠ .node) :
    plan.entryPairs n hook = [] := by
  simp only [entryPairs, calledFor, callsOf_entryCalls, htoken.symm, hnode.symm, if_false,
    ite_self, List.append_nil, List.map_nil]

theorem callsOf_leave_entryCalls : callsOf .leave (plan.entryCalls n within) = [] := by
  simp only [callsOf_entryCalls, reduceCtorEq, if_false, ite_self, List.append_nil]

/-- A node is left by the visitors that entered it. -/
theorem callsOf_node_entryCalls :
    callsOf .node (plan.entryCalls n within) = callsOf .leave (plan.exitCalls n within) := by
  rw [callsOf_entryCalls, exitCalls, callsOf_callsFor]
  simp only [if_true, reduceCtorEq, if_false, ite_self, List.nil_append]

theorem callsOf_exitCalls {hook : Hook} (hleave : hook ≠ .leave) :
    callsOf hook (plan.exitCalls n within) = [] := by
  rw [exitCalls, callsOf_callsFor, if_neg (fun h => hleave h.symm)]

end DispatchPlan

namespace Marked

/-- The calls for a tree are those of its root and of its children, within
the unit of the root, where there is one. -/
theorem callsOf_acts (plan : DispatchPlan) (hook : Hook) (within : List UnitSpec) (m : Marked) :
    callsOf hook (m.acts plan within) =
      callsOf hook (plan.entryCalls m.node (m.unit.toList ++ within)) ++
        (callsOf hook (actsList plan (m.unit.toList ++ within) m.children) ++
          callsOf hook (plan.exitCalls m.node (m.unit.toList ++ within))) := by
  obtain ⟨n, unit, children⟩ := m
  cases unit with
  | none =>
      rw [acts, callsOf_append, callsOf_append, List.append_assoc]
      rfl
  | some unit =>
      have hclosing : callsOf hook [.closing] = [] := rfl
      simp only [acts, callsOf_append, hclosing, List.append_nil, List.append_assoc]
      rfl

mutual
/-- On entry the nodes of a tree are called in order, each once. -/
theorem calledFor_acts (plan : DispatchPlan) {hook : Hook} (hleave : hook ≠ .leave) :
    ∀ (m : Marked) (within : List UnitSpec),
      calledFor hook (m.acts plan within) =
        m.preorder.flatMap fun m => plan.entryPairs m.node hook
  | ⟨n, unit, children⟩, within => by
      rw [calledFor, callsOf_acts, plan.callsOf_exitCalls _ _ hleave, List.append_nil,
        List.map_append, preorder, List.flatMap_cons]
      congr 1
      · exact plan.calledFor_entryCalls n _ hook
      · exact calledFor_actsList plan hleave children _
theorem calledFor_actsList (plan : DispatchPlan) {hook : Hook} (hleave : hook ≠ .leave) :
    ∀ (ms : List Marked) (within : List UnitSpec),
      calledFor hook (actsList plan within ms) =
        (preorderList ms).flatMap fun m => plan.entryPairs m.node hook
  | [], _ => rfl
  | m :: ms, within => by
      rw [actsList, calledFor_append, preorderList, List.flatMap_append,
        calledFor_acts plan hleave m, calledFor_actsList plan hleave ms]
end

/-- The walk of a tree makes no calls for the file. -/
theorem callsOf_acts_eq_nil (plan : DispatchPlan) {hook : Hook} (htoken : hook ≠ .token)
    (hnode : hook ≠ .node) (hleave : hook ≠ .leave) (m : Marked) (within : List UnitSpec) :
    callsOf hook (m.acts plan within) = [] := by
  have h := calledFor_acts plan hleave m within
  simp only [plan.entryPairs_eq_nil _ htoken hnode] at h
  have hnone : m.preorder.flatMap (fun _ => ([] : List (Nat × Node))) = [] :=
    List.flatMap_eq_nil_iff.mpr fun _ _ => rfl
  exact List.map_eq_nil_iff.mp (h.trans hnone)

mutual
/-- Every node is left within the units it was entered in. -/
theorem leave_perm_node (plan : DispatchPlan) :
    ∀ (m : Marked) (within : List UnitSpec),
      (callsOf .leave (m.acts plan within)).Perm (callsOf .node (m.acts plan within))
  | ⟨n, unit, children⟩, within => by
      -- The calls of the node itself come last among the exits and first
      -- among the entries.
      rw [callsOf_acts, callsOf_acts, plan.callsOf_leave_entryCalls, plan.callsOf_node_entryCalls,
        plan.callsOf_exitCalls _ _ (fun h : Hook.node = Hook.leave => by cases h),
        List.nil_append, List.append_nil]
      exact List.perm_append_comm.trans ((leaveList_perm_node plan children _).append_left _)
theorem leaveList_perm_node (plan : DispatchPlan) :
    ∀ (ms : List Marked) (within : List UnitSpec),
      (callsOf .leave (actsList plan within ms)).Perm (callsOf .node (actsList plan within ms))
  | [], _ => List.Perm.refl _
  | m :: ms, within => by
      rw [actsList, callsOf_append, callsOf_append]
      exact (leave_perm_node plan m within).append (leaveList_perm_node plan ms within)
end

end Marked

namespace Engine

variable {σ α : Type} (e : Engine σ α) (file : String) (root : Node)

/-- The calls of a schedule for the nodes are those of its walk. -/
theorem callsOf_schedule {hook : Hook} (hfile : hook ≠ .file) (hleave : hook ≠ .leaveFile) :
    callsOf hook (e.schedule file root) =
      callsOf hook ((e.marking file root).acts e.plan [fileSpec file root]) := by
  rw [schedule, callsOf_append, callsOf_append, callsOf_callsFor, callsOf_callsFor,
    if_neg (fun h => hfile h.symm), if_neg (fun h => hleave h.symm), List.append_nil,
    List.nil_append]

theorem callsOf_file_schedule :
    callsOf .file (e.schedule file root) = e.positions.map (·, root, [fileSpec file root]) := by
  rw [schedule, callsOf_append, callsOf_append, callsOf_callsFor, callsOf_callsFor,
    Marked.callsOf_acts_eq_nil e.plan (fun h => by cases h) (fun h => by cases h)
      (fun h => by cases h), if_pos rfl, if_neg (fun h => by cases h), List.append_nil,
    List.append_nil]

theorem callsOf_leaveFile_schedule :
    callsOf .leaveFile (e.schedule file root) =
      e.positions.map (·, root, [fileSpec file root]) := by
  rw [schedule, callsOf_append, callsOf_append, callsOf_callsFor, callsOf_callsFor,
    Marked.callsOf_acts_eq_nil e.plan (fun h => by cases h) (fun h => by cases h)
      (fun h => by cases h), if_pos rfl, if_neg (fun h => by cases h), List.append_nil,
    List.nil_append]

/-- In a schedule every node of the tree has its calls of entry once, each
node before its children. -/
theorem calledFor_schedule {hook : Hook} (hfile : hook ≠ .file) (hleave : hook ≠ .leave)
    (hleaveFile : hook ≠ .leaveFile) :
    calledFor hook (e.schedule file root) =
      root.preorder.flatMap fun n => e.plan.entryPairs n hook := by
  have hnodes : (e.marking file root).preorder.map Marked.node = root.preorder :=
    Node.preorder_mark [] _ root
  rw [calledFor, e.callsOf_schedule file root hfile hleaveFile, ← calledFor,
    Marked.calledFor_acts e.plan hleave, ← hnodes, List.flatMap_map]

variable [Amount α]

/-- The loop with a stack issues the calls of the plain recursive walk.  A
pass over a file carries out the acts of its schedule, every call within the
units it names: all visitors at the start of the file, the tree by recursion
and all visitors at the end.  Each node of the tree gets its token calls and
its entry calls once, in the order of the tree, and is left by the visitors
that entered it, within the same units. -/
theorem traverse_calls_hooks (memories : List σ) (events : List (Event α)) :
    e.traverse file root memories events = e.traverseRec file root memories events ∧
    (∃ s u, e.performAll file (e.schedule file root) (e.start file root memories events) = some s ∧
      s.units = [u] ∧ e.traverse file root memories events = .ok (e.treeOf s u, s)) ∧
    callsOf .file (e.schedule file root) = e.positions.map (·, root, [fileSpec file root]) ∧
    calledFor .token (e.schedule file root) =
      root.preorder.flatMap (fun n =>
        if n.token.isSome then pairsFor e.plan.tokenObservers n else []) ∧
    calledFor .node (e.schedule file root) =
      root.preorder.flatMap (fun n => pairsFor (e.plan.subscribers n.kind) n) ∧
    (callsOf .leave (e.schedule file root)).Perm (callsOf .node (e.schedule file root)) ∧
    callsOf .leaveFile (e.schedule file root) =
      e.positions.map (·, root, [fileSpec file root]) := by
  refine ⟨?_, ?_, e.callsOf_file_schedule file root, ?_, ?_, ?_,
    e.callsOf_leaveFile_schedule file root⟩
  · simp only [traverse, traverseRec, Node.walkStack_eq_walk]
  · obtain ⟨s, u, hperform, hu, htraverse, -⟩ := traverse_does e file root memories events
    exact ⟨s, u, hperform, hu, htraverse⟩
  · rw [e.calledFor_schedule file root (fun h => by cases h) (fun h => by cases h)
      (fun h => by cases h)]
    simp only [DispatchPlan.entryPairs_token]
  · rw [e.calledFor_schedule file root (fun h => by cases h) (fun h => by cases h)
      (fun h => by cases h)]
    simp only [DispatchPlan.entryPairs_node]
  · rw [e.callsOf_schedule file root (fun h => by cases h) (fun h => by cases h),
      e.callsOf_schedule file root (fun h => by cases h) (fun h => by cases h)]
    exact Marked.leave_perm_node e.plan (e.marking file root) [fileSpec file root]

/-- The units of a file.  A pass never fails.  Its tree is the syntax tree
contracted to the nodes that start a unit, below the unit of the file: a
unit lies below that of the nearest node above that starts one, and units
side by side are in the order of the text.  The nodes that start a unit are
those that an extractor claims, when it is given all nodes above and the
innermost open unit under the key that it has in the tree. -/
theorem traverse_contracts (memories : List σ) (events : List (Event α)) :
    ∃ tree s, e.traverse file root memories events = .ok (tree, s) ∧
      tree.shape = ⟨fileSpec file root, (e.marking file root).contract⟩ ∧
      tree.preorder.map UnitTree.spec =
        fileSpec file root :: (e.marking file root).preorder.filterMap Marked.unit ∧
      (e.marking file root).preorder.map Marked.node = root.preorder ∧
      (e.marking file root).node = root ∧
      (e.marking file root).Right e.extractors [] (fileSpec file root) := by
  obtain ⟨s, u, -, -, htraverse, hshape⟩ := traverse_does e file root memories events
  refine ⟨e.treeOf s u, s, htraverse, hshape, ?_, ?_, ?_, ?_⟩
  · rw [← UnitTree.preorder_shape, hshape, UnitShape.preorder, Marked.preorderList_contract]
  · exact Node.preorder_mark [] _ root
  · exact Node.mark_node [] _ root
  · exact Node.right_mark [] ⟨fileSpec file root, []⟩ root

end Engine
end SourceMetrics
