/-
# One visitor of a pass, and the same visitor alone

All visitors of a pass write into the same open units and mark lines of the
same file, hook by hook.  This module follows one of them through a pass and
compares it with a pass that it makes alone.

* Of the acts of a file, those of the visitor are the acts of the file for
  the visitor alone (`schedule_only`): units open and close as before, and
  each of its own calls is still there.
* `Linked` is the link between the states of the two passes: the open units
  have the same shapes, the own values are the same for metrics that no
  other visitor owns, and the visitor is in the same state.
* An act of another visitor changes nothing that the link speaks of.  An act
  of the visitor itself, when it is local, comes to the same in both states
  (`perform_linked`).  So the link lasts through the pass
  (`performAll_linked`).

Lines are marked by all visitors in one set.  `Marks` says which of them a
visitor marks, act by act; all of these together are the lines of the file
(`mem_lines_of_performAll`), and those of one visitor are the lines of the
file when it is alone.
-/
import Mathlib.Data.List.Forall2
import SourceMetrics.Proofs.Visitor.Local
import SourceMetrics.Proofs.Visitor.Plan

namespace SourceMetrics

/-! ## The acts of one visitor -/

/-- The place of a visitor when it is alone, nothing for all others. -/
def seat? (i position : Nat) : Option Nat := if position = i then some 0 else none

/-- What an act is for the visitor at a position when it is alone.  Calls of
other visitors are nothing to it. -/
def Act.only? (i : Nat) : Act → Option Act
  | .opening unit => some (.opening unit)
  | .calling hook position node within => (seat? i position).map (.calling hook · node within)
  | .closing => some .closing

theorem Act.only?_own (i : Nat) (hook : Hook) (node : Node) (within : List UnitSpec) :
    (calling hook i node within).only? i = some (.calling hook 0 node within) := by
  rw [only?, seat?, if_pos rfl]
  rfl

theorem Act.only?_other {i position : Nat} (h : position ≠ i) (hook : Hook) (node : Node)
    (within : List UnitSpec) : (calling hook position node within).only? i = none := by
  rw [only?, seat?, if_neg h]
  rfl

theorem filterMap_seat_range {i n : Nat} (h : i < n) : (List.range n).filterMap (seat? i) = [0] := by
  induction n with
  | zero => exact absurd h (Nat.not_lt_zero i)
  | succ n ih =>
      rw [List.range_succ, List.filterMap_append]
      by_cases hi : n = i
      · have hnone : (List.range n).filterMap (seat? i) = [] := by
          refine List.filterMap_eq_nil_iff.mpr fun q hq => if_neg ?_
          have := List.mem_range.mp hq
          omega
        rw [hnone, List.filterMap_cons, seat?, if_pos hi]
        rfl
      · rw [ih (by omega), List.filterMap_cons, seat?, if_neg hi]
        rfl

theorem filterMap_callsFor (i : Nat) (hook : Hook) (positions : List Nat) (n : Node)
    (within : List UnitSpec) :
    (callsFor hook positions n within).filterMap (Act.only? i) =
      callsFor hook (positions.filterMap (seat? i)) n within := by
  rw [callsFor, callsFor, List.filterMap_map, List.map_filterMap]
  rfl

namespace DispatchPlan

/-- A plan routes to a single visitor what another plan routes to the
visitor at a position. -/
structure Single (plan single : DispatchPlan) (i : Nat) : Prop where
  tokens : plan.tokenObservers.filterMap (seat? i) = single.tokenObservers
  nodes : ∀ kind, (plan.subscribers kind).filterMap (seat? i) = single.subscribers kind

variable {plan single : DispatchPlan} {i : Nat}

theorem Single.entryCalls (h : plan.Single single i) (n : Node) (within : List UnitSpec) :
    (plan.entryCalls n within).filterMap (Act.only? i) = single.entryCalls n within := by
  rw [DispatchPlan.entryCalls, DispatchPlan.entryCalls, List.filterMap_append, filterMap_callsFor,
    h.nodes]
  congr 1
  split
  · rw [filterMap_callsFor, h.tokens]
  · rfl

theorem Single.exitCalls (h : plan.Single single i) (n : Node) (within : List UnitSpec) :
    (plan.exitCalls n within).filterMap (Act.only? i) = single.exitCalls n within := by
  rw [DispatchPlan.exitCalls, DispatchPlan.exitCalls, filterMap_callsFor, h.nodes]

variable {σ α : Type}

/-- The routes of several visitors hold those of each visitor alone. -/
theorem single_routes {visitors : List (Visitor σ α)} {v : Visitor σ α}
    (hv : visitors[i]? = some v) :
    (empty.routes 0 visitors).Single (empty.routes 0 [v]) i := by
  have hseat : seat? i = fun q => if q = 0 + i then some 0 else none := by
    funext q
    rw [seat?, Nat.zero_add]
  constructor
  · rw [tokenObservers_routes, tokenObservers_routes, List.filterMap_append, hseat,
      filterMap_positionsWhere 0 i hv]
    rfl
  · intro kind
    rw [subscribers_routes, subscribers_routes, List.filterMap_append, hseat,
      filterMap_positionsWhere 0 i hv]
    rfl

end DispatchPlan

namespace Marked

variable {plan single : DispatchPlan} {i : Nat}

mutual
theorem filterMap_acts (h : plan.Single single i) :
    ∀ (m : Marked) (within : List UnitSpec),
      (m.acts plan within).filterMap (Act.only? i) = m.acts single within
  | ⟨n, some unit, children⟩, within => by
      rw [acts, acts, List.filterMap_append, List.filterMap_append, List.filterMap_append,
        List.filterMap_append, h.entryCalls, h.exitCalls, filterMap_actsList h children]
      rfl
  | ⟨n, none, children⟩, within => by
      rw [acts, acts, List.filterMap_append, List.filterMap_append, h.entryCalls, h.exitCalls,
        filterMap_actsList h children]
theorem filterMap_actsList (h : plan.Single single i) :
    ∀ (ms : List Marked) (within : List UnitSpec),
      (actsList plan within ms).filterMap (Act.only? i) = actsList single within ms
  | [], _ => rfl
  | m :: ms, within => by
      rw [actsList, actsList, List.filterMap_append, filterMap_acts h m, filterMap_actsList h ms]
end

end Marked

/-! ## What was recorded -/

namespace UnitTree

variable {α : Type}

theorem preorderList_append (ts us : List (UnitTree α)) :
    preorderList (ts ++ us) = preorderList ts ++ preorderList us := by
  induction ts with
  | nil => rfl
  | cons t ts ih => rw [List.cons_append, preorderList, preorderList, ih, List.append_assoc]

end UnitTree

namespace OpenUnit

variable {α : Type}

/-- The finished units below an open unit, each before those below it. -/
def below (u : OpenUnit α) : List (UnitTree α) := UnitTree.preorderList u.finished.reverse

/-- The own values of a metric on an open unit and on the finished units
below it. -/
def recorded (u : OpenUnit α) (m : Metric) : Option α × List (Option α) :=
  (u.own.value? m, u.below.map (·.own.value? m))

section
variable [Amount α] (registry : MetricRegistry α) (parent u : OpenUnit α)

theorem below_addChild :
    (parent.addChild registry (u.finish registry)).below =
      parent.below ++ u.finish registry :: u.below := by
  show UnitTree.preorderList (u.finish registry :: parent.finished).reverse = _
  rw [List.reverse_cons, UnitTree.preorderList_append, UnitTree.preorderList,
    UnitTree.preorderList, List.append_nil]
  rfl

theorem recorded_addChild (m : Metric) :
    (parent.addChild registry (u.finish registry)).recorded m =
      ((parent.recorded m).1,
        (parent.recorded m).2 ++ (u.recorded m).1 :: (u.recorded m).2) := by
  rw [recorded, below_addChild, List.map_append]
  rfl

end

/-- Two open units have the same shape so far, and the same values of some
metrics were recorded in them. -/
structure Linked (P : Metric → Prop) (u u' : OpenUnit α) : Prop where
  shape : u.shape = u'.shape
  recorded : ∀ m, P m → u.recorded m = u'.recorded m

section
variable {P : Metric → Prop} {u u' parent parent' : OpenUnit α}

theorem linked_new (kind : UnitKind) (key : String) (startLine : Nat) :
    Linked P (new kind key startLine : OpenUnit α) (new kind key startLine) :=
  ⟨rfl, fun _ _ => rfl⟩

theorem Linked.withOwn (h : Linked P u u') {own own' : Measures α}
    (hown : ∀ m, P m → own.value? m = own'.value? m) :
    Linked P { u with own := own } { u' with own := own' } :=
  ⟨h.shape, fun m hm => Prod.ext (hown m hm) (congrArg Prod.snd (h.recorded m hm) :)⟩

theorem Linked.addChild [Amount α] (h : Linked P u u') (hparent : Linked P parent parent')
    (r r' : MetricRegistry α) :
    Linked P (parent.addChild r (u.finish r)) (parent'.addChild r' (u'.finish r')) := by
  refine ⟨?_, fun m hm => ?_⟩
  · rw [shape_addChild, shape_addChild, shape_finish, shape_finish, h.shape, hparent.shape]
  · rw [recorded_addChild, recorded_addChild, h.recorded m hm, hparent.recorded m hm]

end

end OpenUnit

/-- Two states are linked for the visitor at a position of one pass, alone in
the other. -/
structure ScanState.Linked {σ α : Type} (P : Metric → Prop) (i : Nat) (s s' : ScanState σ α) :
    Prop where
  units : List.Forall₂ (OpenUnit.Linked P) s.units s'.units
  memory : s.memories[i]? = s'.memories[0]?

theorem OpenUnit.map_spec_of_linked {α : Type} {P : Metric → Prop} {us us' : List (OpenUnit α)}
    (h : List.Forall₂ (Linked P) us us') : us'.map spec = us.map spec := by
  induction h with
  | nil => rfl
  | @cons u u' rest rest' hlinked _ ih =>
      have hspec : u'.spec = u.spec := congrArg UnitShape.unit hlinked.shape.symm
      rw [List.map_cons, List.map_cons, ih, hspec]

namespace Engine

variable {σ α : Type}

/-- An engine has a single visitor. -/
structure Alone (e : Engine σ α) (v : Visitor σ α) : Prop where
  visitors : e.visitors = [v]
  routes : e.plan = DispatchPlan.empty.routes 0 [v]

theorem Alone.ownedBy {e : Engine σ α} {v : Visitor σ α} (h : e.Alone v) :
    e.plan.ownedBy 0 = v.metrics := by
  rw [h.routes]
  exact DispatchPlan.ownedBy_routes rfl

/-- Of the visitors of one engine, another has a single one, and the same
extractors. -/
structure Isolates (e alone : Engine σ α) (i : Nat) (v : Visitor σ α) : Prop where
  visitor : e.visitors[i]? = some v
  routes : e.plan = DispatchPlan.empty.routes 0 e.visitors
  single : alone.Alone v
  extractors : alone.extractors = e.extractors

section
variable {e alone : Engine σ α} {i : Nat} {v : Visitor σ α}

theorem Isolates.ownedBy (h : e.Isolates alone i v) : e.plan.ownedBy i = v.metrics := by
  rw [h.routes]
  exact DispatchPlan.ownedBy_routes h.visitor

/-- The acts of a file for a visitor alone are those of its acts that are
its own. -/
theorem schedule_only (h : e.Isolates alone i v) (file : String) (root : Node) :
    (e.schedule file root).filterMap (Act.only? i) = alone.schedule file root := by
  have hsingle : e.plan.Single alone.plan i := by
    rw [h.routes, h.single.routes]
    exact DispatchPlan.single_routes h.visitor
  have hpositions : e.positions.filterMap (seat? i) = alone.positions := by
    rw [positions, positions, h.single.visitors]
    exact filterMap_seat_range (List.getElem?_eq_some_iff.mp h.visitor).1
  have hmarking : alone.marking file root = e.marking file root := by
    rw [marking, marking, h.extractors]
  rw [schedule, schedule, List.filterMap_append, List.filterMap_append, filterMap_callsFor,
    filterMap_callsFor, Marked.filterMap_acts hsingle, hpositions, hmarking]

end

variable [Amount α]

/-! ## What is written -/

/-- The writes of an act: the answer of the visitor that is called. -/
def writesOf (e : Engine σ α) (file : String) (s : ScanState σ α) : Act → List (Write α)
  | .calling hook position node _ =>
    match s.units, e.visitors[position]?, s.memories[position]? with
    | u :: _, some v, some memory =>
      ((hook.question node : Question σ α) v memory (e.contextOf file s u position).view).2
    | _, _, _ => []
  | .opening _ | .closing => []

section
variable {e : Engine σ α} {file : String} {s : ScanState σ α} {position : Nat}

theorem writesOf_answered (hook : Hook) (node : Node) (within : List UnitSpec) {u : OpenUnit α}
    {outer : List (OpenUnit α)} {v : Visitor σ α} {memory : σ} (hu : s.units = u :: outer)
    (hv : e.visitors[position]? = some v) (hm : s.memories[position]? = some memory) :
    e.writesOf file s (.calling hook position node within) =
      ((hook.question node : Question σ α) v memory (e.contextOf file s u position).view).2 := by
  simp only [writesOf, hu, hv, hm]

theorem writesOf_unanswered (hook : Hook) (node : Node) (within : List UnitSpec)
    (hs : s.units ≠ []) (h : e.visitors[position]? = none ∨ s.memories[position]? = none) :
    e.writesOf file s (.calling hook position node within) = [] := by
  obtain ⟨u, outer, hu⟩ := List.exists_cons_of_ne_nil hs
  rcases h with hv | hm
  · simp only [writesOf, hu, hv]
  · cases hv : e.visitors[position]? <;> simp only [writesOf, hu, hv, hm]

end

/-- The visitor at a position marks a line in the course of acts. -/
def Marks (e : Engine σ α) (file : String) (i line : Nat) : List Act → ScanState σ α → Prop
  | [], _ => False
  | a :: rest, s =>
    (a.position? = some i ∧ .markNoSonar line ∈ e.writesOf file s a) ∨
      ∃ t, e.perform file s a = some t ∧ e.Marks file i line rest t

section
variable {e : Engine σ α} {file : String} {s t : ScanState σ α}

/-- An act adds the lines that it marks. -/
theorem mem_lines_of_performed {a : Act} (h : e.Performed file s a t) (line : Nat) :
    line ∈ t.noSonarLines ↔
      line ∈ s.noSonarLines ∨ .markNoSonar line ∈ e.writesOf file s a := by
  cases h with
  | opening hu => exact (or_iff_left List.not_mem_nil).symm
  | @answered hook position node u outer v memory hu hv hm =>
      obtain ⟨after, hafter, hmem⟩ :=
        (e.contextOf file s u position).mem_applyAll
          ((hook.question node : Question σ α) v memory (e.contextOf file s u position).view).2 rfl
      have hlines : (e.answered file (hook.question node) s u outer position v memory).noSonarLines =
          after := by
        simp only [answered, hafter, Option.getD_some]
      rw [writesOf_answered hook node _ hu hv hm, hlines]
      exact hmem line
  | @unanswered hook position node hs hnone =>
      rw [writesOf_unanswered hook node _ hs hnone]
      exact (or_iff_left List.not_mem_nil).symm
  | closing hu => exact (or_iff_left List.not_mem_nil).symm

theorem position?_of_mem_writesOf {a : Act} {w : Write α} (h : w ∈ e.writesOf file s a) :
    ∃ i, a.position? = some i := by
  cases a with
  | opening unit => cases h
  | calling hook position node within => exact ⟨position, rfl⟩
  | closing => cases h

/-- The lines of a file are those that its visitors mark. -/
theorem mem_lines_of_performAll {acts : List Act} (h : e.performAll file acts s = some t)
    (line : Nat) :
    line ∈ t.noSonarLines ↔ line ∈ s.noSonarLines ∨ ∃ i, e.Marks file i line acts s := by
  induction acts generalizing s with
  | nil =>
      cases h
      simp only [Marks, exists_false, or_false]
  | cons a acts ih =>
      obtain ⟨s', hs', hrest⟩ := Option.bind_eq_some_iff.mp h
      rw [ih hrest, mem_lines_of_performed (performed_of_perform e file hs') line, or_assoc]
      refine or_congr_right ⟨?_, ?_⟩
      · rintro (hmark | ⟨i, hmarks⟩)
        · obtain ⟨i, hi⟩ := position?_of_mem_writesOf hmark
          exact ⟨i, .inl ⟨hi, hmark⟩⟩
        · exact ⟨i, .inr ⟨s', hs', hmarks⟩⟩
      · rintro ⟨i, ⟨-, hmark⟩ | ⟨s'', hs'', hmarks⟩⟩
        · exact .inl hmark
        · obtain rfl := Option.some.inj (hs'.symm.trans hs'')
          exact .inr ⟨i, hmarks⟩

end

/-! ## Two passes side by side -/

section
variable {e alone : Engine σ α} {file : String} {i : Nat} {v : Visitor σ α} {P : Metric → Prop}
  {s s' t : ScanState σ α}

variable (e alone file i s s') in
/-- A local visitor answers alike on linked units. -/
theorem answers_alike (hlocal : v.Local) (howns : ∀ m ∈ v.metrics, P m) {u u' : OpenUnit α}
    (hinner : u.Linked P u') (hook : Hook) (node : Node) (memory : σ) :
    Answer.Alike
      ((hook.question node : Question σ α) v memory (e.contextOf file s u i).view)
      ((hook.question node : Question σ α) v memory (alone.contextOf file s' u' 0).view) := by
  have hunit : u.spec = u'.spec := congrArg UnitShape.unit hinner.shape
  refine hlocal hook node memory _ _
    ⟨congrArg UnitSpec.kind hunit, congrArg UnitSpec.key hunit, rfl, fun m hm => ?_⟩
  have hvalue : u.own.value? m = u'.own.value? m :=
    congrArg Prod.fst (hinner.recorded m (howns m hm))
  show (u.own.value? m).getD 0 = (u'.own.value? m).getD 0
  rw [hvalue]

theorem linked_other (hisolates : e.Isolates alone i v) (hlinked : s.Linked P i s') {j : Nat}
    (hj : j ≠ i) {w : Visitor σ α} (hw : e.visitors[j]? = some w)
    (hothers : ∀ m, P m → m ∉ w.metrics) (ask : Question σ α) {u : OpenUnit α}
    {outer : List (OpenUnit α)} (hu : s.units = u :: outer) (memory : σ) :
    (e.answered file ask s u outer j w memory).Linked P i s' := by
  have hunits := hlinked.units
  rw [hu] at hunits
  obtain ⟨u', outer', hinner, houter, hu'⟩ := List.forall₂_cons_left_iff.mp hunits
  have hvalue : ∀ m, P m → (VisitorContext.own ((e.contextOf file s u j).applyAll
      (ask w memory (e.contextOf file s u j).view).2)).value? m = u'.own.value? m := by
    intro m hm
    have howned : (e.contextOf file s u j).owned.contains m = false := by
      show (e.plan.ownedBy j).contains m = false
      rw [hisolates.routes, DispatchPlan.ownedBy_routes hw, ← Bool.not_eq_true,
        List.contains_iff_mem]
      exact hothers m hm
    rw [VisitorContext.value?_applyAll, howned]
    exact congrArg Prod.fst (hinner.recorded m hm)
  constructor
  · rw [hu']
    exact .cons (hinner.withOwn hvalue) houter
  · rw [← hlinked.memory]
    exact List.getElem?_set_ne hj

theorem linked_own (hisolates : e.Isolates alone i v) (hlocal : v.Local)
    (howns : ∀ m ∈ v.metrics, P m) (hlinked : s.Linked P i s') (hook : Hook) (node : Node)
    {u u' : OpenUnit α} {outer outer' : List (OpenUnit α)} (hinner : u.Linked P u')
    (houter : List.Forall₂ (OpenUnit.Linked P) outer outer') {memory : σ}
    (hm : s.memories[i]? = some memory) :
    (e.answered file (hook.question node) s u outer i v memory).Linked P i
      (alone.answered file (hook.question node) s' u' outer' 0 v memory) := by
  have hm' : s'.memories[0]? = some memory := hlinked.memory.symm.trans hm
  obtain ⟨hmemory, heffects⟩ :=
    answers_alike e alone file i s s' hlocal howns hinner hook node memory
  refine ⟨.cons (hinner.withOwn fun m hP => ?_) houter, ?_⟩
  · have howned : (e.contextOf file s u i).owned = (alone.contextOf file s' u' 0).owned :=
      hisolates.ownedBy.trans hisolates.single.ownedBy.symm
    have hvalue : (e.contextOf file s u i).own.value? m =
        (alone.contextOf file s' u' 0).own.value? m := congrArg Prod.fst (hinner.recorded m hP)
    rw [VisitorContext.value?_applyAll, VisitorContext.value?_applyAll, howned, hvalue,
      ← Write.foldl_revise_effects m ((hook.question node : Question σ α) v memory _).2, heffects,
      Write.foldl_revise_effects]
  · show (s.memories.set i _)[i]? = (s'.memories.set 0 _)[0]?
    rw [List.getElem?_set_self', List.getElem?_set_self', hm, hm', hmemory]

/-- What one act leads to for the visitor alone: the link lasts, and the
lines that the visitor marks are marked. -/
def Follows (e alone : Engine σ α) (file : String) (P : Metric → Prop) (i : Nat)
    (s s' t : ScanState σ α) (a : Act) : Prop :=
  ∃ t', alone.performAll file (a.only? i).toList s' = some t' ∧ t.Linked P i t' ∧
    ∀ line, line ∈ t'.noSonarLines ↔ line ∈ s'.noSonarLines ∨
      (a.position? = some i ∧ .markNoSonar line ∈ e.writesOf file s a)

theorem performAll_singleton (e : Engine σ α) (file : String) (a : Act) (s : ScanState σ α) :
    e.performAll file [a] s = e.perform file s a := by
  rw [performAll]
  cases e.perform file s a <;> rfl

theorem follows_answered (hisolates : e.Isolates alone i v) (hlocal : v.Local)
    (howns : ∀ m ∈ v.metrics, P m) (hlinked : s.Linked P i s') (hook : Hook) (node : Node)
    {u : OpenUnit α} {outer : List (OpenUnit α)} (hu : s.units = u :: outer) {memory : σ}
    (hm : s.memories[i]? = some memory) :
    e.Follows alone file P i s s'
      (e.answered file (hook.question node) s u outer i v memory)
      (.calling hook i node s.within) := by
  have hunits := hlinked.units
  rw [hu] at hunits
  obtain ⟨u', outer', hinner, houter, hu'⟩ := List.forall₂_cons_left_iff.mp hunits
  have hwithin : s'.within = s.within := OpenUnit.map_spec_of_linked hlinked.units
  have hm' : s'.memories[0]? = some memory := hlinked.memory.symm.trans hm
  have hv' : alone.visitors[0]? = some v := by
    rw [hisolates.single.visitors]
    rfl
  have hact : alone.perform file s' (.calling hook 0 node s.within) =
      some (alone.answered file (hook.question node) s' u' outer' 0 v memory) := by
    rw [perform, if_pos hwithin, call_answered alone file hu' hv' hm']
    rfl
  refine ⟨_, ?_, linked_own hisolates hlocal howns hlinked hook node hinner houter hm, fun line => ?_⟩
  · rw [Act.only?_own, Option.toList_some, performAll_singleton]
    exact hact
  · have heffects :=
      (answers_alike e alone file i s s' hlocal howns hinner hook node memory).2
    rw [mem_lines_of_performed (performed_of_perform alone file hact) line,
      writesOf_answered hook node _ hu hisolates.visitor hm,
      writesOf_answered hook node _ hu' hv' hm', ← Write.mark_mem_effects, ← heffects,
      Write.mark_mem_effects]
    exact or_congr_right (and_iff_right rfl).symm

theorem follows_unanswered (hlinked : s.Linked P i s') (hook : Hook) (node : Node)
    (hs : s.units ≠ []) (hm : s.memories[i]? = none) :
    e.Follows alone file P i s s' s (.calling hook i node s.within) := by
  have hwithin : s'.within = s.within := OpenUnit.map_spec_of_linked hlinked.units
  have hs' : s'.units ≠ [] := by
    intro hnil
    have hunits := hlinked.units
    rw [hnil] at hunits
    exact hs (List.forall₂_nil_right_iff.mp hunits)
  have hact : alone.perform file s' (.calling hook 0 node s.within) = some s' := by
    rw [perform, if_pos hwithin,
      call_unanswered alone file hs' (.inr (hlinked.memory.symm.trans hm))]
    rfl
  refine ⟨s', ?_, hlinked, fun line => ?_⟩
  · rw [Act.only?_own, Option.toList_some, performAll_singleton]
    exact hact
  · rw [writesOf_unanswered hook node _ hs (.inr hm)]
    exact (or_iff_left fun h => List.not_mem_nil h.2).symm

/-- A call of another visitor is nothing to the visitor alone. -/
theorem follows_other (hlinked : t.Linked P i s') {j : Nat} (hj : j ≠ i) (hook : Hook)
    (node : Node) (within : List UnitSpec) :
    e.Follows alone file P i s s' t (.calling hook j node within) := by
  refine ⟨s', ?_, hlinked, fun line => ?_⟩
  · rw [Act.only?_other hj]
    rfl
  · exact (or_iff_left fun h => hj (Option.some.inj h.1)).symm

/-- Every act can be followed by the visitor alone. -/
theorem perform_linked (hisolates : e.Isolates alone i v) (hlocal : v.Local)
    (howns : ∀ m ∈ v.metrics, P m)
    (hothers : ∀ j w, j ≠ i → e.visitors[j]? = some w → ∀ m, P m → m ∉ w.metrics)
    (hlinked : s.Linked P i s') {a : Act} (h : e.Performed file s a t) :
    e.Follows alone file P i s s' t a := by
  have hunits := hlinked.units
  cases h with
  | @opening unit parent outer hu =>
      rw [hu] at hunits
      obtain ⟨parent', outer', -, -, hu'⟩ := List.forall₂_cons_left_iff.mp hunits
      refine ⟨s'.opened unit parent'.key, ?_, ⟨?_, hlinked.memory⟩, fun line => ?_⟩
      · show alone.performAll file [.opening unit] s' = _
        rw [performAll_singleton, perform, hu']
      · exact .cons (OpenUnit.linked_new unit.kind unit.key unit.startLine) hlinked.units
      · exact (or_iff_left fun h => by cases h.1).symm
  | @answered hook position node u outer w memory hu hw hm =>
      -- A call of the visitor itself is made in both passes, any other in one.
      by_cases hposition : position = i
      · subst hposition
        obtain rfl := Option.some.inj (hisolates.visitor.symm.trans hw)
        exact follows_answered hisolates hlocal howns hlinked hook node hu hm
      · have hw' := hothers position w hposition hw
        exact follows_other (linked_other hisolates hlinked hposition hw hw' _ hu memory)
          hposition hook node s.within
  | @unanswered hook position node hs hnone =>
      by_cases hposition : position = i
      · subst hposition
        refine follows_unanswered hlinked hook node hs (hnone.resolve_left ?_)
        rw [hisolates.visitor]
        exact Option.some_ne_none v
      · exact follows_other hlinked hposition hook node s.within
  | @closing u parent outer hu =>
      rw [hu] at hunits
      obtain ⟨u', units', hinner, hrest, hu'⟩ := List.forall₂_cons_left_iff.mp hunits
      obtain ⟨parent', outer', hparent, houter, rfl⟩ := List.forall₂_cons_left_iff.mp hrest
      have hclosed := List.Forall₂.cons (hinner.addChild hparent e.registry alone.registry) houter
      refine ⟨{ s' with units := _ }, ?_, ⟨hclosed, hlinked.memory⟩, fun line => ?_⟩
      · show alone.performAll file [.closing] s' = _
        rw [performAll_singleton, perform, closeUnit, hu']
        rfl
      · exact (or_iff_left fun h => by cases h.1).symm

/-- The visitor alone follows a row of acts through those that are its own,
and comes to a linked state with the lines it marks. -/
theorem performAll_linked (hisolates : e.Isolates alone i v) (hlocal : v.Local)
    (howns : ∀ m ∈ v.metrics, P m)
    (hothers : ∀ j w, j ≠ i → e.visitors[j]? = some w → ∀ m, P m → m ∉ w.metrics)
    {acts : List Act} (h : e.performAll file acts s = some t) (hlinked : s.Linked P i s') :
    ∃ t', alone.performAll file (acts.filterMap (Act.only? i)) s' = some t' ∧ t.Linked P i t' ∧
      ∀ line, line ∈ t'.noSonarLines ↔
        line ∈ s'.noSonarLines ∨ e.Marks file i line acts s := by
  induction acts generalizing s s' with
  | nil =>
      cases h
      exact ⟨s', rfl, hlinked, fun line => (or_iff_left id).symm⟩
  | cons a acts ih =>
      obtain ⟨s₁, hs₁, hrest⟩ := Option.bind_eq_some_iff.mp h
      obtain ⟨s₁', hs₁', hlinked₁, hlines₁⟩ := perform_linked hisolates hlocal howns hothers
        hlinked (performed_of_perform e file hs₁)
      obtain ⟨t', ht', hlinked', hlines'⟩ := ih hrest hlinked₁
      have hacts : (a :: acts).filterMap (Act.only? i) =
          (a.only? i).toList ++ acts.filterMap (Act.only? i) := by
        rw [List.filterMap_cons]
        cases a.only? i <;> rfl
      refine ⟨t', ?_, hlinked', fun line => ?_⟩
      · rw [hacts, performAll_append, hs₁']
        exact ht'
      · rw [hlines', hlines₁, or_assoc]
        refine or_congr_right (or_congr_right ⟨fun hmarks => ⟨s₁, hs₁, hmarks⟩, ?_⟩)
        rintro ⟨s₂, hs₂, hmarks⟩
        obtain rfl := Option.some.inj (hs₁.symm.trans hs₂)
        exact hmarks

end
end Engine
end SourceMetrics
