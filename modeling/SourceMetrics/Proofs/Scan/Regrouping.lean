/-
# Totals of a file, however it is split into units

Extractors decide which units a file has, and so on which unit a visitor's
additions are recorded.  They do not decide which visitors are called for
which nodes, nor in which order: `Node.calls` lists the calls below a node by
recursion on the syntax tree, without a word of units, and the calls of a
schedule are these (`calls_schedule`).

So two passes over one file, each with extractors of its own, can be followed
side by side from call to call.  Their stacks of open units have nothing in
common.  What they share is the ledger (`Engine.SameLedger`): the visitors
have the same in mind, as far as it matters to them, and the values of every
metric, taken together over all units so far, are the same.  To open or close
a unit leaves the ledger alone; a call adds the same amounts to both, on
whatever unit it finds open.  At the end the values of all units, taken
together, are the total of the file.
-/
import SourceMetrics.JavaScript.Scanner
import SourceMetrics.Proofs.Scan.Freshness
import SourceMetrics.Proofs.Scan.Values
import SourceMetrics.Proofs.Visitor.Additive

namespace SourceMetrics

variable {σ α κ : Type}

/-! ## Calls without units -/

/-- One call: the hook, the position of the visitor, and the node. -/
structure Call where
  hook : Hook
  position : Nat
  node : Node

/-- The call an act makes. -/
def Act.call? : Act → Option Call
  | .calling hook position node _ => some ⟨hook, position, node⟩
  | .opening _ | .closing => none

/-- The calls among acts. -/
def callsAmong (acts : List Act) : List Call := acts.filterMap Act.call?

theorem callsAmong_append (as bs : List Act) :
    callsAmong (as ++ bs) = callsAmong as ++ callsAmong bs :=
  List.filterMap_append

theorem callsAmong_callsFor (hook : Hook) (positions : List Nat) (n : Node)
    (within : List UnitSpec) :
    callsAmong (callsFor hook positions n within) = positions.map (⟨hook, ·, n⟩) := by
  induction positions with
  | nil => rfl
  | cons position rest ih => exact congrArg (Call.mk hook position n :: ·) ih

/-- The calls on entry of a node. -/
def DispatchPlan.callsOn (plan : DispatchPlan) (n : Node) : List Call :=
  callsAmong (plan.entryCalls n [])

theorem callsAmong_entryCalls (plan : DispatchPlan) (n : Node) (within : List UnitSpec) :
    callsAmong (plan.entryCalls n within) = plan.callsOn n := by
  simp only [DispatchPlan.callsOn, DispatchPlan.entryCalls, callsAmong_append]
  split
  · simp only [callsAmong_callsFor]
  · simp only [callsAmong_callsFor]

namespace Node

mutual
/-- The calls for a tree. -/
def calls (plan : DispatchPlan) : Node → List Call
  | ⟨kind, span, field, token, children⟩ =>
    let n : Node := ⟨kind, span, field, token, children⟩
    plan.callsOn n ++ callsList plan children ++ (plan.subscribers kind).map (⟨.leave, ·, n⟩)

/-- The calls for trees side by side. -/
def callsList (plan : DispatchPlan) : List Node → List Call
  | [] => []
  | n :: ns => n.calls plan ++ callsList plan ns
end

mutual
/-- Marks change nothing about the calls. -/
theorem calls_mark (plan : DispatchPlan) (extractors : List UnitExtractor) (above : List Node)
    (around : UnitShape) (within : List UnitSpec) :
    ∀ n : Node,
      callsAmong ((n.mark extractors above around).acts plan within) = n.calls plan
  | ⟨kind, span, field, token, children⟩ => by
      rw [mark_eq, calls]
      cases claimedUnit extractors above around ⟨kind, span, field, token, children⟩ with
      | none =>
          simp only [Marked.acts, callsAmong_append, callsAmong_entryCalls,
            DispatchPlan.exitCalls, callsAmong_callsFor, calls_markList plan]
      | some unit =>
          have hopening : callsAmong [.opening unit] = [] := rfl
          have hclosing : callsAmong [.closing] = [] := rfl
          simp only [Marked.acts, callsAmong_append, callsAmong_entryCalls,
            DispatchPlan.exitCalls, callsAmong_callsFor, calls_markList plan, hopening, hclosing,
            List.nil_append, List.append_nil]
theorem calls_markList (plan : DispatchPlan) (extractors : List UnitExtractor)
    (above : List Node) (around : UnitShape) (within : List UnitSpec) :
    ∀ ns : List Node,
      callsAmong (Marked.actsList plan within (markList extractors above around ns)) =
        callsList plan ns
  | [] => rfl
  | n :: ns => by
      rw [markList, Marked.actsList, callsAmong_append, callsList,
        calls_mark plan extractors above around within n,
        calls_markList plan extractors above _ within ns]
end

end Node

/-- The calls of a pass are those of the syntax tree between those at the
start of the file and at its end. -/
theorem Engine.calls_schedule (e : Engine σ α) (file : String) (root : Node) :
    callsAmong (e.schedule file root) =
      e.positions.map (⟨.file, ·, root⟩) ++ root.calls e.plan ++
        e.positions.map (⟨.leaveFile, ·, root⟩) := by
  rw [schedule, callsAmong_append, callsAmong_append, callsAmong_callsFor, callsAmong_callsFor,
    marking, Node.calls_mark]

/-! ## The ledger of a state -/

namespace ScanState

variable [Amount α]

/-- The values of a metric on all units so far, taken together. -/
def total (m : Metric) (s : ScanState σ α) : Option α := combine (· + ·) (s.values m)

/-- What a closed unit had is still there, on its tree. -/
theorem total_closed (r : MetricRegistry α) {s : ScanState σ α} {u parent : OpenUnit α}
    {outer : List (OpenUnit α)} (h : s.units = u :: parent :: outer) (m : Metric) :
    ({ s with units := parent.addChild r (u.finish r) :: outer } : ScanState σ α).total m =
      s.total m := by
  rw [total, values_closed r h, total]

variable [LinearOrder α] [ExactAmount α]

/-- A unit is opened without any value. -/
theorem total_opened (s : ScanState σ α) (unit : UnitSpec) (parent : String) (m : Metric) :
    (s.opened unit parent).total m = s.total m := by
  rw [total, values_opened, combine_append]
  exact Option.merge_none_right

end ScanState

namespace JavaScript

variable [Amount α]

theorem builtIn_of_mem_standardVisitors {options : Options} {v : Visitor FileMemory α}
    (hv : v ∈ standardVisitors options) : v.BuiltIn := by
  revert v
  simp only [standardVisitors, List.forall_mem_cons]
  exact ⟨.counter _ _, .lines _, .linesOfCode _, .comments _ _, .counter _ _, .counter _ _, nofun⟩

/-- Units for classes are a matter of the extractors alone. -/
theorem config_classUnits (options : Options) (classUnits : Bool)
    (metrics : List (MetricDefinition α)) (visitors : List (Visitor FileMemory α)) :
    config { options with classUnits := classUnits } metrics visitors =
      { config options metrics visitors with
        extractors := extractors { options with classUnits := classUnits } } :=
  rfl

end JavaScript

namespace Engine

variable [Amount α] [LinearOrder α] [ExactAmount α]

/-- An act that calls nobody leaves the states of the visitors and all totals
alone. -/
theorem Performed.keeps_ledger {e : Engine σ α} {file : String} {a : Act} {s t : ScanState σ α}
    (h : e.Performed file s a t) (hcall : a.call? = none) :
    t.memories = s.memories ∧ ∀ m, t.total m = s.total m := by
  cases h with
  | opening _ => exact ⟨rfl, ScanState.total_opened s _ _⟩
  | answered _ _ _ => cases hcall
  | unanswered _ _ => cases hcall
  | closing hu => exact ⟨rfl, ScanState.total_closed e.registry hu⟩

/-- A call of a visitor that adds blindly adds to the totals of the metrics
the visitor owns, whichever unit is open. -/
theorem total_answered {e : Engine σ α} (hroutes : e.plan = DispatchPlan.empty.routes 0 e.visitors)
    {reads : σ → κ} {v : Visitor σ α} (hblind : v.AddsBlindly reads) {position : Nat}
    (hv : e.visitors[position]? = some v) (file : String) (hook : Hook) (n : Node)
    {s : ScanState σ α} {u : OpenUnit α} {outer : List (OpenUnit α)} (hu : s.units = u :: outer)
    (memory : σ) (m : Metric) :
    (e.answered file (hook.question n) s u outer position v memory).total m =
      if m ∈ v.metrics then
        Option.merge (· + ·) (s.total m) (Write.added m
          ((hook.question n : Question σ α) v memory (e.contextOf file s u position).view).2)
      else s.total m := by
  let context := e.contextOf file s u position
  let ws := ((hook.question n : Question σ α) v memory context.view).2
  have howned : context.owned = v.metrics := by
    show e.plan.ownedBy position = v.metrics
    rw [hroutes, DispatchPlan.ownedBy_routes hv]
  have hvalue := context.value?_applyAll ws m
  rw [howned] at hvalue
  -- The value of the innermost unit stands between those of the units around
  -- it and those of its finished children.
  have hafter : (e.answered file (hook.question n) s u outer position v memory).total m =
      combine (· + ·) (ScanState.outerValues m outer ++
        (context.applyAll ws).own.value? m :: (u.recorded m).2) := by
    rw [ScanState.total, ScanState.values_eq rfl]
    rfl
  have hbefore : s.total m =
      combine (· + ·) (ScanState.outerValues m outer ++ u.own.value? m :: (u.recorded m).2) := by
    rw [ScanState.total, ScanState.values_eq hu]
    rfl
  rw [hafter, hbefore, hvalue]
  by_cases hm : m ∈ v.metrics
  · have hset : ∀ x, .set m x ∉ ws := fun x => hblind.adds hook n memory context.view m x hm
    rw [if_pos (List.contains_iff_mem.mpr hm), if_pos hm, Write.foldl_revise_eq_merge hset,
      combine_append, combine_append, combine_cons, combine_cons]
    ac_rfl
  · rw [if_neg (fun h => hm (List.contains_iff_mem.mp h)), if_neg hm]
    rfl

/-! ## Two passes side by side -/

/-- The engine with other extractors. -/
def withExtractors (e : Engine σ α) (extractors : List UnitExtractor) : Engine σ α :=
  { e with extractors := extractors }

/-- Two states of passes over one file have the same ledger: the visitors
have the same in mind as far as it matters, and every metric has the same
total over all units. -/
structure SameLedger (e : Engine σ α) (reads : Visitor σ α → σ → κ) (s s' : ScanState σ α) :
    Prop where
  memories : e.SameSetup reads s.memories s'.memories
  total : ∀ m, s.total m = s'.total m

section
variable {e : Engine σ α} {reads : Visitor σ α → σ → κ} {extractors : List UnitExtractor}
  {file : String} {s s' t t' : ScanState σ α}

/-- A call does the same to both ledgers. -/
theorem SameLedger.called (hroutes : e.plan = DispatchPlan.empty.routes 0 e.visitors)
    (hblind : ∀ v ∈ e.visitors, v.AddsBlindly (reads v)) (h : e.SameLedger reads s s')
    {hook : Hook} {position : Nat} {n : Node} {within within' : List UnitSpec}
    (ht : e.Performed file s (.calling hook position n within) t)
    (ht' : (e.withExtractors extractors).Performed file s' (.calling hook position n within') t') :
    e.SameLedger reads t t' := by
  cases ht with
  | @answered _ _ _ u outer v memory hu hv hm =>
      obtain ⟨memory', hm', hreads⟩ := h.memories.exists_memory hv hm
      have hblindly := hblind v (List.mem_of_getElem? hv)
      cases ht' with
      | @answered _ _ _ u' outer' v' memory'' hu' hv' hm'' =>
          obtain rfl : v = v' := Option.some.inj (hv.symm.trans hv')
          obtain rfl : memory' = memory'' := Option.some.inj (hm'.symm.trans hm'')
          obtain ⟨hafter, hadded⟩ := hblindly.blind hook n memory memory'
            (e.contextOf file s u position).view (e.contextOf file s' u' position).view hreads rfl
          refine ⟨h.memories.set_both hv hm hm' hafter, fun m => ?_⟩
          have hroutes' : (e.withExtractors extractors).plan =
            DispatchPlan.empty.routes 0 (e.withExtractors extractors).visitors := hroutes
          rw [total_answered hroutes hblindly hv file hook n hu,
            total_answered hroutes' hblindly hv' file hook n hu', h.total]
          split
          next hm =>
              rw [Write.added, Write.added, hadded m hm]
              rfl
          next => rfl
      | unanswered hu' hnone =>
          rcases hnone with hnone | hnone
          · cases hv.symm.trans hnone
          · cases hm'.symm.trans hnone
  | unanswered hu hnone =>
      cases ht' with
      | @answered _ _ _ u' outer' v' memory' hu' hv' hm' =>
          obtain ⟨memory, hm, -⟩ := h.memories.symm.exists_memory hv' hm'
          rcases hnone with hnone | hnone
          · cases hv'.symm.trans hnone
          · cases hm.symm.trans hnone
      | unanswered hu' hnone' => exact h

/-- Acts that call nobody leave the ledger alone. -/
theorem SameLedger.uncalled (h : e.SameLedger reads s s') {acts : List Act}
    (hcalls : ∀ a ∈ acts, a.call? = none)
    (ht' : (e.withExtractors extractors).performAll file acts s' = some t') :
    e.SameLedger reads s t' := by
  refine performAll_keeps (e.withExtractors extractors) file (P := e.SameLedger reads s) ?_ ht' h
  intro a ha r r' hr hstep
  obtain ⟨hmemories, htotal⟩ := hstep.keeps_ledger (hcalls a ha)
  exact ⟨hmemories ▸ hr.memories, fun m => (hr.total m).trans (htotal m).symm⟩

/-- Acts with the same calls, carried out with different extractors, keep the
ledgers the same. -/
theorem SameLedger.performAll (hroutes : e.plan = DispatchPlan.empty.routes 0 e.visitors)
    (hblind : ∀ v ∈ e.visitors, v.AddsBlindly (reads v)) (h : e.SameLedger reads s s')
    {acts acts' : List Act} (hcalls : callsAmong acts = callsAmong acts')
    (ht : e.performAll file acts s = some t)
    (ht' : (e.withExtractors extractors).performAll file acts' s' = some t') :
    e.SameLedger reads t t' := by
  induction acts generalizing acts' s s' with
  | nil =>
      cases ht
      exact h.uncalled (List.filterMap_eq_nil_iff.mp hcalls.symm) ht'
  | cons a acts ih =>
      obtain ⟨r, hr, hrest⟩ := Option.bind_eq_some_iff.mp ht
      have hstep := performed_of_perform e file hr
      rw [callsAmong, List.filterMap_cons] at hcalls
      cases hcall : a.call? with
      | none =>
          simp only [hcall] at hcalls
          obtain ⟨hmemories, htotal⟩ := hstep.keeps_ledger hcall
          refine ih ?_ hcalls hrest ht'
          exact ⟨hmemories ▸ h.memories, fun m => (htotal m).trans (h.total m)⟩
      | some call =>
          -- The other pass may open and close units before it comes to the
          -- same call.
          simp only [hcall] at hcalls
          obtain ⟨quiet, a', rest', rfl, hquiet, hcall', hcalls'⟩ :=
            List.filterMap_eq_cons_iff.mp hcalls.symm
          rw [performAll_append] at ht'
          obtain ⟨q', hq', ht'⟩ := Option.bind_eq_some_iff.mp ht'
          obtain ⟨r', hr', hrest'⟩ := Option.bind_eq_some_iff.mp ht'
          have hstep' := performed_of_perform _ file hr'
          have hledger := h.uncalled hquiet hq'
          cases a with
          | opening unit => cases hcall
          | closing => cases hcall
          | calling hook position node within =>
              cases a' with
              | opening unit => cases hcall'
              | closing => cases hcall'
              | calling hook' position' node' within' =>
                  cases hcall
                  cases hcall'
                  exact ih (hledger.called hroutes hblind hstep hstep') hcalls'.symm hrest hrest'

end

/-! ## Whole files -/

/-- Two engines come to the same totals of every summed metric, on any file
and from any states of the visitors that are related. -/
def SameSums (e e' : Engine σ α) (related : List σ → List σ → Prop) : Prop :=
  ∀ (file : String) (root : Node) (ms ms' : List σ) (events events' : List (Event α)),
    related ms ms' →
    ∃ tree s tree' s', e.traverse file root ms events = .ok (tree, s) ∧
      e'.traverse file root ms' events' = .ok (tree', s') ∧
      ∀ d ∈ e.registry.definitions, d.aggregation = .sum →
        tree.measures.value? d.metric = tree'.measures.value? d.metric

/-- The total of a file is what its units hold at the end, taken together. -/
theorem value?_treeOf {e : Engine σ α}
    (hnodup : (e.registry.definitions.map (·.metric)).Nodup) {d : MetricDefinition α}
    (hd : d ∈ e.registry.definitions) (hsum : d.aggregation = .sum) {s : ScanState σ α}
    {u : OpenUnit α} (hu : s.units = [u]) (haccounted : (e.treeOf s u).Accounted e.registry) :
    (e.treeOf s u).measures.value? d.metric = s.total d.metric := by
  have hop : d.aggregation.op? = some (· + ·) := by
    rw [hsum]
    rfl
  have hvalues : s.values d.metric = (e.treeOf s u).owns d.metric := by
    rw [owns_treeOf, ScanState.values_eq hu]
    rfl
  rw [UnitTree.value?_measures hnodup hd hop _ haccounted, ScanState.total, hvalues]
  rfl

/-- Visitors that add blindly come to the same sums with any extractors. -/
theorem sameSums_withExtractors {config : ScannerConfig σ α} {registry : MetricRegistry α}
    (hsound : Sound config registry) (reads : Visitor σ α → σ → κ)
    (hblind : ∀ v ∈ config.visitors, v.AddsBlindly (reads v)) (grammar : Grammar)
    (extractors : List UnitExtractor) :
    (engineOf config grammar registry).SameSums
      (engineOf { config with extractors := extractors } grammar registry)
      ((engineOf config grammar registry).SameSetup reads) := by
  intro file root ms ms' events events' hms
  let e := engineOf config grammar registry
  obtain ⟨s, u, hperform, hu, htraverse, -⟩ := traverse_does e file root ms events
  obtain ⟨s', u', hperform', hu', htraverse', -⟩ :=
    traverse_does (e.withExtractors extractors) file root ms' events'
  have hstart : e.SameLedger reads (e.start file root ms events)
      ((e.withExtractors extractors).start file root ms' events') := ⟨hms, fun _ => rfl⟩
  have hcalls : callsAmong (e.schedule file root) =
      callsAmong ((e.withExtractors extractors).schedule file root) := by
    rw [calls_schedule, calls_schedule]
    rfl
  have hledger := hstart.performAll rfl hblind hcalls hperform hperform'
  have hnodup := MetricRegistry.nodup_of_ofDefinitions hsound.registered
  refine ⟨_, s, _, s', htraverse, htraverse', fun d hd hsum => ?_⟩
  have hleft := value?_treeOf (e := e) hnodup hd hsum hu (accounted_of_traverse htraverse)
  have hright := value?_treeOf (e := e.withExtractors extractors) hnodup hd hsum hu'
    (accounted_of_traverse htraverse')
  exact hleft.trans ((hledger.total d.metric).trans hright.symm)

/-- The visitors that come with the scanner come to the same sums with any
extractors, whatever they have in mind from files before. -/
theorem sameSums_builtIn {config : ScannerConfig FileMemory α} {registry : MetricRegistry α}
    (hsound : Sound config registry) (hbuiltIn : ∀ v ∈ config.visitors, v.BuiltIn)
    (grammar : Grammar) (extractors : List UnitExtractor) :
    (engineOf config grammar registry).SameSums
      (engineOf { config with extractors := extractors } grammar registry)
      (fun ms ms' => ms.length = ms'.length) := by
  intro file root ms ms' events events' hlength
  let e := engineOf config grammar registry
  obtain ⟨tree, s, tree', s', htraverse, htraverse', hsums⟩ :=
    sameSums_withExtractors hsound (fun _ => id) (fun v hv => (hbuiltIn v hv).addsBlindly) grammar
      extractors file root ms ms events events' (.refl ms)
  have hsetup : (e.withExtractors extractors).SameSetup (fun _ _ => ()) ms ms' := by
    intro i v hv
    by_cases hi : i < ms.length
    · rw [List.getElem?_eq_getElem hi, List.getElem?_eq_getElem (hlength ▸ hi)]
      rfl
    · rw [List.getElem?_eq_none (Nat.le_of_not_lt hi),
        List.getElem?_eq_none (hlength ▸ Nat.le_of_not_lt hi)]
  obtain ⟨again, t, t', ht, ht', -⟩ := traverse_alike (fun v hv => (hbuiltIn v hv).resets) hsetup
    file root events'
  cases htraverse'.symm.trans ht
  exact ⟨tree, s, tree', t', htraverse, ht', hsums⟩

/-- Units move the values of a file about, and neither lose nor double any:
where all visitors add blindly, the totals of the summed metrics of a file
are the same with any two lists of extractors.  The visitors that come with
the scanner add blindly, so units for classes make no difference to the
totals of a JavaScript file. -/
theorem traverse_sums_of_extractors {config : ScannerConfig σ α} {grammar : Grammar}
    {e : Engine σ α} (he : build config grammar = .ok e) (reads : Visitor σ α → σ → κ)
    (hblind : ∀ v ∈ config.visitors, v.AddsBlindly (reads v)) (extractors : List UnitExtractor) :
    (∃ e', build { config with extractors := extractors } grammar = .ok e' ∧
      e.SameSums e' (e.SameSetup reads)) ∧
    (∀ v : Visitor FileMemory α, v.BuiltIn → v.AddsBlindly id) ∧
    (∀ (options : JavaScript.Options) (classUnits : Bool) (metrics : List (MetricDefinition α))
        (visitors : List (Visitor FileMemory α)) (e : Engine FileMemory α),
      (∀ v ∈ visitors, v.BuiltIn) →
      build (JavaScript.config options metrics visitors) grammar = .ok e →
      ∃ e', build (JavaScript.config { options with classUnits := classUnits } metrics visitors)
          grammar = .ok e' ∧
        e.SameSums e' (fun ms ms' => ms.length = ms'.length)) := by
  refine ⟨?_, fun v hv => hv.addsBlindly, ?_⟩
  · obtain ⟨registry, hsound, rfl⟩ := (build_eq_ok_iff config grammar e).mp he
    refine ⟨_, (build_eq_ok_iff _ grammar _).mpr
      ⟨registry, hsound.withExtractors extractors, rfl⟩, ?_⟩
    exact sameSums_withExtractors hsound reads hblind grammar extractors
  · intro options classUnits metrics visitors e hvisitors he
    obtain ⟨registry, hsound, rfl⟩ := (build_eq_ok_iff _ grammar e).mp he
    have hbuiltIn : ∀ v ∈ (JavaScript.config options metrics visitors).visitors, v.BuiltIn := by
      intro v hv
      rcases List.mem_append.mp hv with hv | hv
      · exact JavaScript.builtIn_of_mem_standardVisitors hv
      · exact hvisitors v hv
    rw [JavaScript.config_classUnits]
    refine ⟨_, (build_eq_ok_iff _ grammar _).mpr ⟨registry, hsound.withExtractors _, rfl⟩, ?_⟩
    exact sameSums_builtIn hsound hbuiltIn grammar _

/-! ## Two functions, with and without units for branches -/

/-- Functions and branches, with a unit for every function. -/
def grouped : ScannerConfig FileMemory Nat where
  projectKey := "sample"
  metrics := [⟨Metric.functions, .sum⟩, ⟨Metric.complexity, .sum⟩]
  filesMetric := none
  visitors := [.counter Metric.functions ["function"], .counter Metric.complexity ["if"]]
  extractors := [.rule "functions" .function ["function"] .byKind]

/-- Units for branches alone. -/
def branchUnits : List UnitExtractor := [.rule "branches" .cls ["if"] .byKind]

theorem traverse_sums_of_extractors_twoFunctions :
    ∃ e e', build grouped sampleGrammar = .ok e ∧
      build { grouped with extractors := branchUnits } sampleGrammar = .ok e' ∧
      ∃ tree s tree' s', e.traverse "f" twoFunctions [.empty, .empty] [] = .ok (tree, s) ∧
        e'.traverse "f" twoFunctions [.empty, .empty] [] = .ok (tree', s') ∧
        tree.owns Metric.complexity = [none, some 1, some 2] ∧
        tree'.owns Metric.complexity = [none, some 1, some 1, some 1] ∧
        tree.measures.value? Metric.complexity = tree'.measures.value? Metric.complexity := by
  let regrouped : ScannerConfig FileMemory Nat := { grouped with extractors := branchUnits }
  have he : build grouped sampleGrammar =
      .ok (engineOf grouped sampleGrammar ⟨grouped.metrics⟩) := rfl
  have hregrouped : build regrouped sampleGrammar =
      .ok (engineOf regrouped sampleGrammar ⟨grouped.metrics⟩) := rfl
  have hblind : ∀ v ∈ grouped.visitors, v.AddsBlindly (id : FileMemory → FileMemory) := by
    intro v hv
    rcases List.mem_cons.mp hv with rfl | hv
    · exact (Visitor.BuiltIn.counter Metric.functions ["function"]).addsBlindly
    · obtain rfl := List.mem_singleton.mp hv
      exact (Visitor.BuiltIn.counter Metric.complexity ["if"]).addsBlindly
  obtain ⟨⟨e', he', hsums⟩, -, -⟩ :=
    traverse_sums_of_extractors he (fun _ => id) hblind branchUnits
  obtain rfl := Except.ok.inj (hregrouped.symm.trans he')
  obtain ⟨tree, s, tree', s', htraverse, htraverse', hsum⟩ :=
    hsums "f" twoFunctions [.empty, .empty] [.empty, .empty] [] [] (.refl _)
  have howns : ((engineOf grouped sampleGrammar ⟨grouped.metrics⟩).traverse "f" twoFunctions
      [.empty, .empty] []).toOption.map (fun result => result.1.owns Metric.complexity) =
      some [none, some 1, some 2] := by cbv
  have howns' : ((engineOf regrouped sampleGrammar ⟨grouped.metrics⟩).traverse "f" twoFunctions
      [.empty, .empty] []).toOption.map (fun result => result.1.owns Metric.complexity) =
      some [none, some 1, some 1, some 1] := by cbv
  rw [htraverse] at howns
  rw [htraverse'] at howns'
  refine ⟨_, _, he, hregrouped, tree, s, tree', s', htraverse, htraverse', Option.some.inj howns,
    Option.some.inj howns', ?_⟩
  exact hsum ⟨Metric.complexity, .sum⟩ (List.mem_cons_of_mem _ List.mem_cons_self) rfl

end Engine
end SourceMetrics
