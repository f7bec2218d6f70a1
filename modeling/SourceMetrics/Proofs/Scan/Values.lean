/-
# The values of one visitor in a file

The values of a metric that were recorded so far, on the open units and on
the finished ones, stand in one list: the outer units before the inner, each
unit before those below it.  In this list an act does very little.  To open
a unit adds a place without a value at the end, to close one changes
nothing, and a call revises the value of the innermost unit.  When the file
is finished the list is `UnitTree.owns`.

A visitor that is alone in a pass hears the calls of the schedule one after
the other, each while some unit is the innermost; the number of that unit is
its place in the list.  What is to be shown of the visitor can be said of the
calls it has heard with these numbers, of its state and of the list, for one
answer at a time (`Visitor.KeepsPlaced`, `Alone.traverse_keepsPlaced`); and
when it is local, it holds among other visitors too (`traverse_keepsPlaced`).
Often the numbers do not matter (`Visitor.Keeps`, `traverse_keeps`).
-/
import SourceMetrics.Proofs.Scan.Isolation
import SourceMetrics.Proofs.Scan.Places

namespace SourceMetrics

variable {σ α : Type}

/-! ## The values recorded so far -/

/-- The own values of a metric on an open unit and on those below it. -/
def OpenUnit.values (m : Metric) (u : OpenUnit α) : List (Option α) :=
  (u.recorded m).1 :: (u.recorded m).2

namespace ScanState

/-- The own values of a metric on all units so far. -/
def values (m : Metric) (s : ScanState σ α) : List (Option α) :=
  s.units.reverse.flatMap (·.values m)

/-- The values on the units around the innermost one. -/
def outerValues (m : Metric) (outer : List (OpenUnit α)) : List (Option α) :=
  outer.reverse.flatMap (·.values m)

theorem values_eq {s : ScanState σ α} {u : OpenUnit α} {outer : List (OpenUnit α)}
    (h : s.units = u :: outer) (m : Metric) :
    s.values m = outerValues m outer ++ u.values m := by
  rw [values, h, List.reverse_cons, List.flatMap_append, List.flatMap_singleton]
  rfl

/-- The value of the innermost unit stands at the number of this unit. -/
theorem length_outerValues (m : Metric) (outer : List (OpenUnit α)) :
    (outerValues m outer).length = OpenUnit.extentAll outer := by
  induction outer with
  | nil => rfl
  | cons u outer ih =>
      rw [outerValues, List.reverse_cons, List.flatMap_append, List.flatMap_singleton,
        List.length_append, OpenUnit.extentAll_cons, ← ih, OpenUnit.values, List.length_cons,
        OpenUnit.recorded, List.length_map]
      rfl

theorem values_opened (s : ScanState σ α) (unit : UnitSpec) (parent : String) (m : Metric) :
    (s.opened unit parent).values m = s.values m ++ [none] := by
  have hunits : (s.opened unit parent).units =
      .new unit.kind unit.key unit.startLine :: s.units := rfl
  exact values_eq hunits m

theorem values_closed [Amount α] (r : MetricRegistry α) {s : ScanState σ α}
    {u parent : OpenUnit α} {outer : List (OpenUnit α)} (h : s.units = u :: parent :: outer)
    (m : Metric) :
    ({ s with units := parent.addChild r (u.finish r) :: outer } : ScanState σ α).values m =
      s.values m := by
  have houter : outerValues m (parent :: outer) = outerValues m outer ++ parent.values m := by
    rw [outerValues, List.reverse_cons, List.flatMap_append, List.flatMap_singleton]
    rfl
  rw [values_eq h, houter, values_eq rfl, OpenUnit.values, OpenUnit.recorded_addChild,
    List.append_assoc]
  rfl

end ScanState

/-! ## Calls that are heard -/

/-- The hook and the node of an act that calls the first visitor. -/
def Act.heard? : Act → Option (Hook × Node)
  | .calling hook position node _ => if position = 0 then some (hook, node) else none
  | .opening _ | .closing => none

/-- The calls of the first visitor among acts. -/
def heard (acts : List Act) : List (Hook × Node) := acts.filterMap Act.heard?

/-- A call with the number of the unit that is innermost then. -/
structure PlacedCall where
  unit : Nat
  hook : Hook
  node : Node

namespace PlacedCall

/-- The call without the number. -/
def call (c : PlacedCall) : Hook × Node := (c.hook, c.node)

end PlacedCall

/-- The call of the first visitor in an act, at the given places. -/
def Act.heardAt (p : Places) (a : Act) : List PlacedCall :=
  (a.heard?.map fun call => ⟨p.here, call.1, call.2⟩).toList

/-- The calls of the first visitor among acts, from the given places on. -/
def heardFrom (p : Places) : List Act → List PlacedCall
  | [] => []
  | a :: acts => a.heardAt p ++ heardFrom (p.after a) acts

theorem heardFrom_append (p : Places) (as bs : List Act) :
    heardFrom p (as ++ bs) = heardFrom p as ++ heardFrom (p.afterAll as) bs := by
  induction as generalizing p with
  | nil => rfl
  | cons a as ih =>
      rw [List.cons_append, heardFrom, ih, heardFrom, List.append_assoc]
      rfl

theorem heard_cons (a : Act) (acts : List Act) :
    heard (a :: acts) = a.heard?.toList ++ heard acts := by
  rw [heard, List.filterMap_cons]
  cases a.heard? <;> rfl

/-- Without the numbers, these are the calls that are heard. -/
theorem map_call_heardFrom (p : Places) (acts : List Act) :
    (heardFrom p acts).map PlacedCall.call = heard acts := by
  induction acts generalizing p with
  | nil => rfl
  | cons a acts ih =>
      rw [heardFrom, heard_cons, List.map_append, ih, Act.heardAt]
      cases a.heard? <;> rfl

theorem mem_heard {hook : Hook} {n : Node} {acts : List Act} :
    (hook, n) ∈ heard acts ↔ (0, n) ∈ calledFor hook acts := by
  induction acts with
  | nil => exact ⟨fun h => absurd h List.not_mem_nil, fun h => absurd h List.not_mem_nil⟩
  | cons a acts ih =>
      have hcalled : calledFor hook (a :: acts) =
          ((a.callOf? hook).map fun call => (call.1, call.2.1)).toList ++ calledFor hook acts := by
        rw [calledFor, callsOf, List.filterMap_cons]
        cases a.callOf? hook <;> rfl
      have hact : (hook, n) ∈ a.heard?.toList ↔
          (0, n) ∈ ((a.callOf? hook).map fun call => (call.1, call.2.1)).toList := by
        cases a with
        | opening unit =>
            exact ⟨fun h => absurd h List.not_mem_nil, fun h => absurd h List.not_mem_nil⟩
        | calling h position node within =>
            simp only [Act.heard?, Act.callOf?, Option.mem_toList, Option.ite_none_right_eq_some,
              Option.map_eq_some_iff, Option.some.injEq, Prod.mk.injEq]
            constructor
            · rintro ⟨rfl, rfl, rfl⟩
              exact ⟨_, ⟨rfl, rfl⟩, rfl, rfl⟩
            · rintro ⟨_, ⟨rfl, rfl⟩, rfl, rfl⟩
              exact ⟨rfl, rfl, rfl⟩
        | closing =>
            exact ⟨fun h => absurd h List.not_mem_nil, fun h => absurd h List.not_mem_nil⟩
      rw [heard_cons, hcalled, List.mem_append, List.mem_append, ih, hact]

/-! ## What answers keep -/

/-- What a visitor makes true at the start of a file and keeps with each of
its later answers: of the calls it has heard, of its state and of the values
of a metric.  An answer changes the value at the number of the call; units
without a value do not matter. -/
structure Visitor.KeepsPlaced [Amount α] (v : Visitor σ α) (m : Metric) (root : Node)
    (P : List PlacedCall → σ → List (Option α) → Prop) : Prop where
  first : ∀ (memory : σ) (view : UnitView α), P [⟨0, .file, root⟩] (v.visitFile memory root view).1
    [(v.visitFile memory root view).2.foldl (Write.revise m) none]
  opening : ∀ {heard : List PlacedCall} {memory : σ} {values : List (Option α)},
    P heard memory values → P heard memory (values ++ [none])
  later : ∀ (heard : List PlacedCall) (hook : Hook) (n : Node) (memory : σ)
    (view : UnitView α) (before after : List (Option α)) (value : Option α), hook ≠ .file →
    P heard memory (before ++ value :: after) →
    P (heard ++ [⟨before.length, hook, n⟩])
      ((hook.question n : Engine.Question σ α) v memory view).1
      (before ++ ((hook.question n : Engine.Question σ α) v memory view).2.foldl
        (Write.revise m) value :: after)

/-- The same where the numbers of the units do not matter. -/
structure Visitor.Keeps [Amount α] (v : Visitor σ α) (m : Metric) (root : Node)
    (P : List (Hook × Node) → σ → List (Option α) → Prop) : Prop where
  first : ∀ (memory : σ) (view : UnitView α), P [(.file, root)] (v.visitFile memory root view).1
    [(v.visitFile memory root view).2.foldl (Write.revise m) none]
  opening : ∀ {heard : List (Hook × Node)} {memory : σ} {values : List (Option α)},
    P heard memory values → P heard memory (values ++ [none])
  later : ∀ (heard : List (Hook × Node)) (hook : Hook) (n : Node) (memory : σ)
    (view : UnitView α) (before after : List (Option α)) (value : Option α), hook ≠ .file →
    P heard memory (before ++ value :: after) →
    P (heard ++ [(hook, n)]) ((hook.question n : Engine.Question σ α) v memory view).1
      (before ++ ((hook.question n : Engine.Question σ α) v memory view).2.foldl
        (Write.revise m) value :: after)

theorem Visitor.Keeps.placed [Amount α] {v : Visitor σ α} {m : Metric} {root : Node}
    {P : List (Hook × Node) → σ → List (Option α) → Prop} (h : v.Keeps m root P) :
    v.KeepsPlaced m root fun calls => P (calls.map PlacedCall.call) where
  first := h.first
  opening := h.opening
  later calls hook n memory view before after value hhook hP := by
    rw [List.map_append]
    exact h.later (calls.map PlacedCall.call) hook n memory view before after value hhook hP

namespace Engine

/-- The acts of a file that come after the calls of its start. -/
def laterActs (e : Engine σ α) (file : String) (root : Node) : List Act :=
  (e.marking file root).acts e.plan [fileSpec file root] ++
    callsFor .leaveFile e.positions root [fileSpec file root]

/-- The start of a file is called for once. -/
theorem hook_ne_file_of_mem {e : Engine σ α} {file : String} {root node : Node} {hook : Hook}
    {position : Nat} {within : List UnitSpec}
    (h : .calling hook position node within ∈ e.laterActs file root) : hook ≠ .file := by
  rintro rfl
  have hmem : (position, node, within) ∈ callsOf .file (e.laterActs file root) :=
    List.mem_filterMap.mpr ⟨_, h, rfl⟩
  rw [laterActs, callsOf_append, callsOf_callsFor, if_neg (fun h => by cases h),
    Marked.callsOf_acts_eq_nil e.plan (fun h => by cases h) (fun h => by cases h)
      (fun h => by cases h)] at hmem
  exact List.not_mem_nil hmem

/-! ## A visitor that is alone -/

section
variable {e : Engine σ α} {v : Visitor σ α}

theorem Alone.schedule (h : e.Alone v) (file : String) (root : Node) :
    e.schedule file root =
      .calling .file 0 root [fileSpec file root] :: e.laterActs file root := by
  have hpositions : e.positions = [0] := by
    rw [positions, h.visitors]
    rfl
  rw [Engine.schedule, laterActs, List.append_assoc, hpositions]
  rfl

theorem Alone.visitor (h : e.Alone v) {position : Nat} {w : Visitor σ α}
    (hw : e.visitors[position]? = some w) : position = 0 ∧ w = v := by
  rw [h.visitors] at hw
  cases position with
  | zero => exact ⟨rfl, (Option.some.inj hw).symm⟩
  | succ n => cases hw

/-- A visitor that observes tokens hears of each token of the tree. -/
theorem Alone.mem_heard_token (h : e.Alone v) (hobserves : v.observesTokens = true) (file : String)
    (root n : Node) :
    (.token, n) ∈ heard (e.schedule file root) ↔ n ∈ root.preorder ∧ n.token.isSome := by
  have hobservers : e.plan.tokenObservers = [0] := by
    rw [h.routes, DispatchPlan.tokenObservers_routes, DispatchPlan.positionsWhere, hobserves]
    rfl
  rw [mem_heard, e.calledFor_schedule file root (fun h => by cases h) (fun h => by cases h)
    (fun h => by cases h), List.mem_flatMap]
  simp only [DispatchPlan.entryPairs_token, hobservers]
  constructor
  · rintro ⟨n', hn', hpair⟩
    split at hpair
    next htoken =>
      obtain rfl : n = n' := congrArg Prod.snd (List.mem_singleton.mp hpair)
      exact ⟨hn', htoken⟩
    next => exact absurd hpair List.not_mem_nil
  · rintro ⟨hn, htoken⟩
    refine ⟨n, hn, ?_⟩
    rw [if_pos htoken]
    exact List.mem_singleton_self _

variable [Amount α]

/-- A call revises the value of the innermost unit. -/
theorem Alone.values_answered (h : e.Alone v) {m : Metric} (hm : m ∈ v.metrics) (file : String)
    (ask : Question σ α) (s : ScanState σ α) (u : OpenUnit α) (outer : List (OpenUnit α))
    (memory : σ) :
    (e.answered file ask s u outer 0 v memory).values m =
      ScanState.outerValues m outer ++
        (ask v memory (e.contextOf file s u 0).view).2.foldl (Write.revise m) (u.own.value? m) ::
          (u.recorded m).2 := by
  have howned : (e.contextOf file s u 0).owned.contains m = true := by
    show (e.plan.ownedBy 0).contains m = true
    rw [h.ownedBy]
    exact List.contains_iff_mem.mpr hm
  have hvalue := (e.contextOf file s u 0).value?_applyAll
    (ask v memory (e.contextOf file s u 0).view).2 m
  rw [if_pos howned] at hvalue
  rw [ScanState.values_eq rfl]
  exact congrArg (ScanState.outerValues m outer ++ · :: (u.recorded m).2) hvalue

/-- The first act of a file calls the visitor with the unit of the file. -/
theorem Alone.perform_first (h : e.Alone v) (file : String) (root : Node) (memory : σ)
    (events : List (Event α)) :
    e.perform file (e.start file root [memory] events)
        (.calling .file 0 root [fileSpec file root]) =
      some (e.answered file (Hook.question root .file) (e.start file root [memory] events)
        (e.fileUnit file root) [] 0 v memory) := by
  have hwithin : (e.start file root [memory] events).within = [fileSpec file root] := by
    rw [ScanState.within_eq, shapes_start]
    rfl
  have hv : e.visitors[0]? = some v := by
    rw [h.visitors]
    rfl
  rw [perform, if_pos hwithin, call_answered e file rfl hv rfl]
  rfl

/-- The calls heard, the state of the visitor and the values of a metric are
as asked. -/
def Holds (P : List PlacedCall → σ → List (Option α) → Prop) (m : Metric)
    (calls : List PlacedCall) (s : ScanState σ α) : Prop :=
  ∃ memory, s.memories = [memory] ∧ P calls memory (s.values m)

section
variable {m : Metric} {root : Node} {P : List PlacedCall → σ → List (Option α) → Prop}

theorem Alone.holds_first (h : e.Alone v) (hm : m ∈ v.metrics) (hfiles : e.filesMetric ≠ some m)
    (hP : v.KeepsPlaced m root P) (file : String) (memory : σ) (events : List (Event α)) :
    Holds P m [⟨0, .file, root⟩] (e.answered file (Hook.question root .file)
      (e.start file root [memory] events) (e.fileUnit file root) [] 0 v memory) := by
  have hrecorded : (e.fileUnit file root).recorded m = (none, []) := by
    rw [recorded_fileUnit, if_neg hfiles]
  have hown : (e.fileUnit file root).own.value? m = none := congrArg Prod.fst hrecorded
  refine ⟨_, rfl, ?_⟩
  rw [h.values_answered hm, hrecorded, hown]
  exact hP.first memory _

/-- Each act after the first call keeps what the answers of the visitor keep. -/
theorem Alone.holds_of_performed (h : e.Alone v) (hm : m ∈ v.metrics)
    (hP : v.KeepsPlaced m root P) {file : String} {a : Act} (ha : a ∈ e.laterActs file root)
    {calls : List PlacedCall} {s t : ScanState σ α} (hs : Holds P m calls s)
    (hact : e.Performed file s a t) : Holds P m (calls ++ a.heardAt s.places) t := by
  obtain ⟨memory, hmemories, hvalues⟩ := hs
  cases hact with
  | opening hu =>
      refine ⟨memory, hmemories, ?_⟩
      rw [ScanState.values_opened, Act.heardAt, Act.heard?, Option.map_none, Option.toList_none,
        List.append_nil]
      exact hP.opening hvalues
  | @answered hook position node u outer w memory' hu hw hm' =>
      -- The value of the innermost unit stands between those of the units
      -- around it and those of its finished children.
      obtain ⟨rfl, rfl⟩ := h.visitor hw
      rw [hmemories] at hm'
      obtain rfl : memory = memory' := Option.some.inj hm'
      refine ⟨((hook.question node : Question σ α) w memory (e.contextOf file s u 0).view).1,
        ?_, ?_⟩
      · show s.memories.set 0 _ = _
        rw [hmemories]
        rfl
      · rw [h.values_answered hm, Act.heardAt, Act.heard?, if_pos rfl, Option.map_some,
          Option.toList_some, ScanState.here_places hu, ← ScanState.length_outerValues m outer]
        rw [ScanState.values_eq hu] at hvalues
        exact hP.later calls hook node memory _ _ _ _ (hook_ne_file_of_mem ha) hvalues
  | @unanswered hook position node hu hnone =>
      have hposition : position ≠ 0 := by
        rintro rfl
        rw [h.visitors, hmemories] at hnone
        rcases hnone with hnone | hnone
        · cases hnone
        · cases hnone
      refine ⟨memory, hmemories, ?_⟩
      rw [Act.heardAt, Act.heard?, if_neg hposition, Option.map_none, Option.toList_none,
        List.append_nil]
      exact hvalues
  | closing hu =>
      refine ⟨memory, hmemories, ?_⟩
      rw [ScanState.values_closed e.registry hu, Act.heardAt, Act.heard?, Option.map_none,
        Option.toList_none, List.append_nil]
      exact hvalues

theorem Alone.holds_of_performAll (h : e.Alone v) (hm : m ∈ v.metrics)
    (hP : v.KeepsPlaced m root P) {file : String} {acts : List Act}
    (hacts : ∀ a ∈ acts, a ∈ e.laterActs file root) {calls : List PlacedCall}
    {s t : ScanState σ α} (hs : Holds P m calls s)
    (hperform : e.performAll file acts s = some t) :
    Holds P m (calls ++ heardFrom s.places acts) t := by
  induction acts generalizing calls s with
  | nil =>
      cases hperform
      rw [heardFrom, List.append_nil]
      exact hs
  | cons a acts ih =>
      obtain ⟨s', hs', hrest⟩ := Option.bind_eq_some_iff.mp hperform
      have hact := performed_of_perform e file hs'
      have hstep := h.holds_of_performed hm hP (hacts a List.mem_cons_self) hs hact
      rw [heardFrom, ← List.append_assoc, ← places_of_performed hact]
      exact ih (fun b hb => hacts b (List.mem_cons_of_mem a hb)) hstep hrest

/-- What the answers of a visitor keep holds at the end of a file, when the
visitor is alone. -/
theorem Alone.traverse_keepsPlaced (h : e.Alone v) (hm : m ∈ v.metrics)
    (hfiles : e.filesMetric ≠ some m) (hP : v.KeepsPlaced m root P) (file : String) (memory : σ)
    (events : List (Event α)) :
    ∃ tree s after, e.traverse file root [memory] events = .ok (tree, s) ∧
      s.memories = [after] ∧
      P (heardFrom .first (e.schedule file root)) after (tree.owns m) := by
  obtain ⟨s, u, hperform, hu, htraverse, -⟩ := traverse_does e file root [memory] events
  have hplaces := (places_of_performed (performed_of_perform e file
    (h.perform_first file root memory events))).trans (places_start e file root [memory] events)
  rw [h.schedule, performAll, h.perform_first] at hperform
  obtain ⟨after, hmemories, hvalues⟩ := h.holds_of_performAll hm hP (fun _ ha => ha)
    (h.holds_first hm hfiles hP file memory events) hperform
  refine ⟨_, s, after, htraverse, hmemories, ?_⟩
  rw [hplaces, ScanState.values_eq hu] at hvalues
  rw [h.schedule]
  exact hvalues

/-- What the answers of a local visitor keep holds at the end of a file,
whatever other visitors there are. -/
theorem traverse_keepsPlaced {config : ScannerConfig σ α} {registry : MetricRegistry α}
    (hsound : Sound config registry) {memories : List σ}
    (hmemories : memories.length = config.visitors.length) {i : Nat}
    (hv : config.visitors[i]? = some v) (hlocal : v.Local) (hm : m ∈ v.metrics)
    (hP : v.KeepsPlaced m root P) (grammar : Grammar) (file : String) (events : List (Event α)) :
    ∃ tree s after,
      (engineOf config grammar registry).traverse file root memories events = .ok (tree, s) ∧
      s.memories[i]? = some after ∧
      P (heardFrom .first
          ((engineOf { config with visitors := [v] } grammar registry).schedule file root))
        after (tree.owns m) := by
  have hi : i < memories.length := by
    rw [hmemories]
    exact (List.getElem?_eq_some_iff.mp hv).1
  have hmember : (config.visitors.zip memories)[i]? = some (v, memories[i]) :=
    List.getElem?_zip_eq_some.mpr ⟨hv, List.getElem?_eq_getElem hi⟩
  have hcrew : config.visitors = (config.visitors.zip memories).map Prod.fst :=
    (List.map_fst_zip hmemories.ge).symm
  have hstates : (config.visitors.zip memories).map Prod.snd = memories :=
    List.map_snd_zip hmemories.le
  have hmem : v ∈ config.visitors := List.mem_of_getElem? hv
  have hfiles : config.filesMetric ≠ some m := fun hfiles =>
    (hsound.files m hfiles).2 (DispatchPlan.mem_written.mpr ⟨v, hmem, hm⟩)
  obtain ⟨tree, s, tree', s', htraverse, htraverse', hmemory, howns, -⟩ :=
    traverse_alone hsound hcrew (hsound.alone hmem) rfl rfl hmember hlocal grammar grammar file root
      events
  rw [hstates] at htraverse
  have halone : (engineOf { config with visitors := [v] } grammar registry).Alone v :=
    alone_engineOf rfl grammar registry
  obtain ⟨tree₁, s₁, after, htraverse₁, hafter, hvalues⟩ :=
    halone.traverse_keepsPlaced hm hfiles hP file memories[i] events
  cases htraverse'.symm.trans htraverse₁
  refine ⟨tree, s, after, htraverse, ?_, ?_⟩
  · rw [hmemory, hafter]
    rfl
  · rw [howns m (.inl hm)]
    exact hvalues

/-- The same where the numbers of the units do not matter. -/
theorem traverse_keeps {P : List (Hook × Node) → σ → List (Option α) → Prop}
    {config : ScannerConfig σ α} {registry : MetricRegistry α} (hsound : Sound config registry)
    {memories : List σ} (hmemories : memories.length = config.visitors.length) {i : Nat}
    (hv : config.visitors[i]? = some v) (hlocal : v.Local) (hm : m ∈ v.metrics)
    (hP : v.Keeps m root P) (grammar : Grammar) (file : String) (events : List (Event α)) :
    ∃ tree s after,
      (engineOf config grammar registry).traverse file root memories events = .ok (tree, s) ∧
      s.memories[i]? = some after ∧
      P (heard ((engineOf { config with visitors := [v] } grammar registry).schedule file root))
        after (tree.owns m) := by
  obtain ⟨tree, s, after, htraverse, hmemory, hvalues⟩ :=
    traverse_keepsPlaced hsound hmemories hv hlocal hm hP.placed grammar file events
  rw [map_call_heardFrom] at hvalues
  exact ⟨tree, s, after, htraverse, hmemory, hvalues⟩

end
end
end Engine
end SourceMetrics
