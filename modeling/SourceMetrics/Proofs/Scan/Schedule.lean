/-
# The acts of a pass over a file

A pass over a file opens units, calls hooks of visitors and closes units,
and nothing else.  An `Act` is one of these; a call names the visitor, the
node and the units that are open, the innermost first.

`Engine.schedule` lists the acts of a file by plain recursion on its marked
tree, without a stack and without the state of a pass:

    file                  visit_file  of every visitor
    └─ node               open its unit, where it starts one
       │                  visit_token of every token observer, where it has a token
       │                  visit_node  of every subscriber of its kind
       ├─ children        the same for each, from left to right
       │                  leave_node  of the same subscribers
       │                  close its unit, where it starts one
                          leave_file  of every visitor

`Engine.performAll` carries acts out on the state of a pass; an act that
does not fit the state, such as a call that names other units than are
open, is refused.  The main statement is that a pass over a file never
fails and does just what its schedule says (`traverse_does`), and the link
from one to the other is `Engine.Does`.
-/
import SourceMetrics.Proofs.Scan.Marking
import SourceMetrics.Proofs.SyntaxTree.Walk

namespace SourceMetrics

/-! ## Open units and their shapes -/

namespace OpenUnit

variable {α : Type}

/-- What a unit was opened as. -/
def spec (u : OpenUnit α) : UnitSpec := ⟨u.kind, u.key, u.startLine⟩

/-- The shape an open unit has so far. -/
def shape (u : OpenUnit α) : UnitShape := ⟨u.spec, u.finished.reverse.map UnitTree.shape⟩

theorem freeKey_reverse (taken : List String) (key : String) (column : Nat) :
    freeKey taken.reverse key column = freeKey taken key column := by
  simp only [freeKey, List.contains_reverse, List.length_reverse]

theorem uniqueKey_eq_freeKey (u : OpenUnit α) (key : String) (column : Nat) :
    u.uniqueKey key column = freeKey u.shape.keysBelow key column := by
  have hkeys : u.shape.keysBelow = (u.finished.map (·.key)).reverse := by
    simp only [shape, UnitShape.keysBelow, List.map_map, List.map_reverse]
    congr 2
    funext t
    simp only [Function.comp, UnitTree.shape_unit, UnitTree.spec]
  rw [hkeys, freeKey_reverse]
  rfl

variable [Amount α] (registry : MetricRegistry α)

theorem shape_finish (u : OpenUnit α) : (u.finish registry).shape = u.shape := by
  simp only [finish, UnitTree.shape, UnitTree.shapeList_eq_map]
  rfl

theorem shape_addChild (u : OpenUnit α) (t : UnitTree α) :
    (u.addChild registry t).shape = u.shape.add [t.shape] := by
  simp only [addChild, shape, UnitShape.add, List.reverse_cons, List.map_append, List.map_cons,
    List.map_nil]
  rfl

end OpenUnit

namespace ScanState

variable {σ α : Type}

/-- The shapes of the open units, the innermost first. -/
def shapes (s : ScanState σ α) : List UnitShape := s.units.map OpenUnit.shape

/-- What the open units were opened as, the innermost first. -/
def within (s : ScanState σ α) : List UnitSpec := s.units.map OpenUnit.spec

/-- The state with one more open unit, inside the unit of the given key. -/
def opened (s : ScanState σ α) (unit : UnitSpec) (parent : String) : ScanState σ α :=
  { s with
    units := .new unit.kind unit.key unit.startLine :: s.units
    events := .openingUnit unit.kind unit.key parent :: s.events }

theorem within_eq (s : ScanState σ α) : s.within = s.shapes.map UnitShape.unit := by
  simp only [within, shapes, List.map_map]
  rfl

/-- Where there is a shape, there is a unit of that shape. -/
theorem units_of_shapes {s : ScanState σ α} {around : UnitShape} {outer : List UnitShape}
    (h : s.shapes = around :: outer) :
    ∃ u units, s.units = u :: units ∧ u.shape = around ∧ units.map OpenUnit.shape = outer :=
  List.map_eq_cons_iff.mp h

end ScanState

/-! ## Acts -/

/-- One act of a pass over a file. -/
inductive Act where
  | opening (unit : UnitSpec)
  | calling (hook : Hook) (position : Nat) (node : Node) (within : List UnitSpec)
  | closing

namespace Act

/-- The visitor, node and units of a call of the given hook. -/
def callOf? (hook : Hook) : Act → Option (Nat × Node × List UnitSpec)
  | .calling h position node within => if h = hook then some (position, node, within) else none
  | .opening _ | .closing => none

/-- The position of the visitor an act calls. -/
def position? : Act → Option Nat
  | .calling _ position _ _ => some position
  | .opening _ | .closing => none

end Act

/-- The question a hook puts to a visitor about a node. -/
def Hook.question {σ α : Type} (n : Node) : Hook → Engine.Question σ α
  | .file => fun v memory view => v.visitFile memory n view
  | .node => fun v memory view => v.visitNode memory n view
  | .token => fun v memory view =>
    match n.token with
    | some t => v.visitToken memory n t view
    | none => (memory, [])
  | .leave => fun v memory view => v.leaveNode memory n view
  | .leaveFile => fun v memory view => v.leaveFile memory n view

/-! ## The schedule of a file -/

/-- The calls of one hook for one node. -/
def callsFor (hook : Hook) (positions : List Nat) (n : Node) (within : List UnitSpec) : List Act :=
  positions.map (.calling hook · n within)

namespace DispatchPlan

/-- The calls on entry of a node. -/
def entryCalls (plan : DispatchPlan) (n : Node) (within : List UnitSpec) : List Act :=
  (if n.token.isSome then callsFor .token plan.tokenObservers n within else []) ++
    callsFor .node (plan.subscribers n.kind) n within

/-- The calls on exit from a node. -/
def exitCalls (plan : DispatchPlan) (n : Node) (within : List UnitSpec) : List Act :=
  callsFor .leave (plan.subscribers n.kind) n within

end DispatchPlan

namespace Marked

mutual
/-- The acts for a tree, within the given units. -/
def acts (plan : DispatchPlan) (within : List UnitSpec) : Marked → List Act
  | ⟨n, some unit, children⟩ =>
    [.opening unit] ++ plan.entryCalls n (unit :: within) ++
      actsList plan (unit :: within) children ++ plan.exitCalls n (unit :: within) ++ [.closing]
  | ⟨n, none, children⟩ =>
    plan.entryCalls n within ++ actsList plan within children ++ plan.exitCalls n within

/-- The acts for trees side by side, within the given units. -/
def actsList (plan : DispatchPlan) (within : List UnitSpec) : List Marked → List Act
  | [] => []
  | m :: ms => m.acts plan within ++ actsList plan within ms
end

end Marked

namespace Engine

variable {σ α : Type}

/-- What the unit of a file is opened as. -/
def fileSpec (file : String) (root : Node) : UnitSpec := ⟨.file, file, root.startLine⟩

/-- The tree of a file with the units its extractors open. -/
def marking (e : Engine σ α) (file : String) (root : Node) : Marked :=
  root.mark e.extractors [] ⟨fileSpec file root, []⟩

/-- The acts of a pass over a file, in their order. -/
def schedule (e : Engine σ α) (file : String) (root : Node) : List Act :=
  callsFor .file e.positions root [fileSpec file root] ++
    (e.marking file root).acts e.plan [fileSpec file root] ++
    callsFor .leaveFile e.positions root [fileSpec file root]

/-! ## Carrying acts out -/

variable [Amount α]

/-- Carries out one act, where it fits the state. -/
def perform (e : Engine σ α) (file : String) (s : ScanState σ α) : Act → Option (ScanState σ α)
  | .opening unit =>
    match s.units with
    | [] => none
    | parent :: _ => some (s.opened unit parent.key)
  | .calling hook position node within =>
    if s.within = within then (e.call file (hook.question node) s position).toOption else none
  | .closing => (e.closeUnit file s).toOption

/-- Carries out acts one after the other. -/
def performAll (e : Engine σ α) (file : String) : List Act → ScanState σ α → Option (ScanState σ α)
  | [], s => some s
  | a :: rest, s => (e.perform file s a).bind (e.performAll file rest)

theorem performAll_append (e : Engine σ α) (file : String) (as bs : List Act)
    (s : ScanState σ α) :
    e.performAll file (as ++ bs) s = (e.performAll file as s).bind (e.performAll file bs) := by
  induction as generalizing s with
  | nil => rfl
  | cons a as ih =>
      simp only [List.cons_append, performAll]
      cases e.perform file s a with
      | none => rfl
      | some t => exact ih t

/-- A part of a pass does what acts say: it goes well, it comes to the
state they lead to from `s`, and leaves the open units in the given shapes. -/
def Does (e : Engine σ α) (file : String) (s : ScanState σ α)
    (part : Except ScanError (ScanState σ α)) (acts : List Act) (shapes : List UnitShape) : Prop :=
  ∃ t, part = .ok t ∧ e.performAll file acts s = some t ∧ t.shapes = shapes

section
variable {e : Engine σ α} {file : String} {s : ScanState σ α}

theorem Does.refl {shapes : List UnitShape} (h : s.shapes = shapes) :
    e.Does file s (.ok s) [] shapes :=
  ⟨s, rfl, rfl, h⟩

/-- One part after another does the acts of both. -/
theorem Does.bind {part : Except ScanError (ScanState σ α)}
    {rest : ScanState σ α → Except ScanError (ScanState σ α)} {as bs : List Act}
    {middle last : List UnitShape} (h : e.Does file s part as middle)
    (hrest : ∀ t, t.shapes = middle → e.Does file t (rest t) bs last) :
    e.Does file s (part.bind rest) (as ++ bs) last := by
  obtain ⟨t, rfl, hp, ht⟩ := h
  obtain ⟨t', hr, hp', ht'⟩ := hrest t ht
  refine ⟨t', hr, ?_, ht'⟩
  rw [performAll_append, hp]
  exact hp'

/-- What is done from a state that acts lead to, is done by these acts and
its own. -/
theorem Does.after {t : ScanState σ α} {part : Except ScanError (ScanState σ α)}
    {as bs : List Act} {middle last : List UnitShape} (h : e.Does file s (.ok t) as middle)
    (hrest : t.shapes = middle → e.Does file t part bs last) :
    e.Does file s part (as ++ bs) last := by
  obtain ⟨t', ht', hp, hmiddle⟩ := h
  cases ht'
  obtain ⟨t', hr, hp', hlast⟩ := hrest hmiddle
  refine ⟨t', hr, ?_, hlast⟩
  rw [performAll_append, hp]
  exact hp'

end

/-! ## What a call does -/

variable (e : Engine σ α) (file : String) {s : ScanState σ α}

/-- What a visitor is given when it is called. -/
def contextOf (e : Engine σ α) (file : String) (s : ScanState σ α) (u : OpenUnit α)
    (position : Nat) : VisitorContext α :=
  ⟨u.own, e.plan.ownedBy position, u.kind, u.key, file, some s.noSonarLines, s.events⟩

/-- The state once a visitor was called: its own state, the values of the
innermost unit `u`, the lines marked and the record have changed. -/
def answered (e : Engine σ α) (file : String) (ask : Question σ α) (s : ScanState σ α)
    (u : OpenUnit α) (outer : List (OpenUnit α)) (position : Nat) (v : Visitor σ α)
    (memory : σ) : ScanState σ α :=
  let context := e.contextOf file s u position
  let after := context.applyAll (ask v memory context.view).2
  { units := { u with own := after.own } :: outer
    memories := s.memories.set position (ask v memory context.view).1
    noSonarLines := after.noSonarLines.getD .empty
    events := after.events }

theorem call_answered {ask : Question σ α} {position : Nat} {u : OpenUnit α}
    {outer : List (OpenUnit α)} {v : Visitor σ α} {memory : σ} (hu : s.units = u :: outer)
    (hv : e.visitors[position]? = some v) (hm : s.memories[position]? = some memory) :
    e.call file ask s position = .ok (e.answered file ask s u outer position v memory) := by
  simp only [call, hu, hv, hm]
  rfl

/-- A call at a position where no visitor is does nothing. -/
theorem call_unanswered {ask : Question σ α} {position : Nat} (hu : s.units ≠ [])
    (h : e.visitors[position]? = none ∨ s.memories[position]? = none) :
    e.call file ask s position = .ok s := by
  unfold call
  cases hs : s.units with
  | nil => exact absurd hs hu
  | cons u outer =>
      rcases h with h | h
      · simp only [h]
      · cases hv : e.visitors[position]? with
        | none => rfl
        | some v => simp only [h]

/-- A call goes well where a unit is open, and leaves the shapes alone. -/
theorem exists_call (ask : Question σ α) (position : Nat) (hs : s.units ≠ []) :
    ∃ t, e.call file ask s position = .ok t ∧ t.shapes = s.shapes := by
  cases hv : e.visitors[position]? with
  | none => exact ⟨s, call_unanswered e file hs (.inl hv), rfl⟩
  | some v =>
      cases hm : s.memories[position]? with
      | none => exact ⟨s, call_unanswered e file hs (.inr hm), rfl⟩
      | some memory =>
          obtain ⟨u, outer, hu⟩ := List.exists_cons_of_ne_nil hs
          refine ⟨_, call_answered e file hu hv hm, ?_⟩
          simp only [ScanState.shapes, hu, List.map_cons]
          rfl

/-! ## What an act does -/

/-- The state `t` comes from `s` by one act.  A call changes nothing where
no visitor is, or no state for it. -/
inductive Performed (e : Engine σ α) (file : String) (s : ScanState σ α) :
    Act → ScanState σ α → Prop
  | opening {unit : UnitSpec} {parent : OpenUnit α} {outer : List (OpenUnit α)} :
      s.units = parent :: outer → Performed e file s (.opening unit) (s.opened unit parent.key)
  | answered {hook : Hook} {position : Nat} {node : Node} {u : OpenUnit α}
      {outer : List (OpenUnit α)} {v : Visitor σ α} {memory : σ} :
      s.units = u :: outer → e.visitors[position]? = some v →
      s.memories[position]? = some memory →
      Performed e file s (.calling hook position node s.within)
        (e.answered file (hook.question node) s u outer position v memory)
  | unanswered {hook : Hook} {position : Nat} {node : Node} :
      s.units ≠ [] → e.visitors[position]? = none ∨ s.memories[position]? = none →
      Performed e file s (.calling hook position node s.within) s
  | closing {u parent : OpenUnit α} {outer : List (OpenUnit α)} :
      s.units = u :: parent :: outer →
      Performed e file s .closing
        { s with units := parent.addChild e.registry (u.finish e.registry) :: outer }

/-- All that an act can do. -/
theorem performed_of_perform {a : Act} {t : ScanState σ α} (h : e.perform file s a = some t) :
    e.Performed file s a t := by
  cases a with
  | opening unit =>
      cases hu : s.units with
      | nil => simp only [perform, hu, reduceCtorEq] at h
      | cons parent outer =>
          simp only [perform, hu, Option.some.injEq] at h
          obtain rfl := h
          exact .opening hu
  | calling hook position node within =>
      by_cases hwithin : s.within = within
      · rw [perform, if_pos hwithin] at h
        subst hwithin
        cases hu : s.units with
        | nil => simp only [call, hu, Except.toOption, reduceCtorEq] at h
        | cons u outer =>
            have hs : s.units ≠ [] := by rw [hu]; exact List.cons_ne_nil u outer
            cases hv : e.visitors[position]? with
            | none =>
                rw [call_unanswered e file hs (.inl hv)] at h
                cases h
                exact .unanswered hs (.inl hv)
            | some v =>
                cases hm : s.memories[position]? with
                | none =>
                    rw [call_unanswered e file hs (.inr hm)] at h
                    cases h
                    exact .unanswered hs (.inr hm)
                | some memory =>
                    rw [call_answered e file hu hv hm] at h
                    cases h
                    exact .answered hu hv hm
      · rw [perform, if_neg hwithin] at h
        cases h
  | closing =>
      match hu : s.units with
      | [] | [_] => simp only [perform, closeUnit, hu, Except.toOption, reduceCtorEq] at h
      | u :: parent :: outer =>
          simp only [perform, closeUnit, hu, Except.toOption, Option.some.injEq] at h
          obtain rfl := h
          exact .closing hu

/-- What each of some acts keeps, the row of them keeps. -/
theorem performAll_keeps {P : ScanState σ α → Prop} {acts : List Act}
    (hstep : ∀ a ∈ acts, ∀ {s t}, P s → e.Performed file s a t → P t) {t : ScanState σ α}
    (h : e.performAll file acts s = some t) (hs : P s) : P t := by
  induction acts generalizing s with
  | nil =>
      cases h
      exact hs
  | cons a acts ih =>
      obtain ⟨s', hs', hrest⟩ := Option.bind_eq_some_iff.mp h
      refine ih (fun b hb => hstep b (List.mem_cons_of_mem a hb)) hrest ?_
      exact hstep a List.mem_cons_self hs (performed_of_perform e file hs')

/-- What every act keeps, a row of acts keeps. -/
theorem performAll_preserves {P : ScanState σ α → Prop}
    (hstep : ∀ {s a t}, P s → e.Performed file s a t → P t) {acts : List Act}
    {t : ScanState σ α} (h : e.performAll file acts s = some t) (hs : P s) : P t :=
  performAll_keeps e file (fun _ _ => hstep) h hs

/-! ## From a pass to its acts -/

/-- The calls of one hook go to the visitors in turn. -/
theorem callEach_does (hook : Hook) (n : Node) {around : UnitShape} {outer : List UnitShape}
    (positions : List Nat) (h : s.shapes = around :: outer) :
    e.Does file s (e.callEach file (hook.question n) positions s)
      (callsFor hook positions n (around.unit :: outer.map UnitShape.unit)) (around :: outer) := by
  induction positions generalizing s with
  | nil => exact Does.refl h
  | cons position rest ih =>
      obtain ⟨u, units, hu, -, -⟩ := ScanState.units_of_shapes h
      have hs : s.units ≠ [] := by rw [hu]; exact List.cons_ne_nil _ _
      obtain ⟨t, hcall, ht⟩ := exists_call e file (hook.question n) position hs
      obtain ⟨t', hrest, hp, ht'⟩ := ih (ht.trans h)
      refine ⟨t', ?_, ?_, ht'⟩
      · simp only [callEach, hcall, hrest]
      · have hw : s.within = around.unit :: outer.map UnitShape.unit := by
          rw [ScanState.within_eq, h, List.map_cons]
        show (e.perform file s (.calling hook position n _)).bind _ = some t'
        rw [perform, if_pos hw, hcall]
        exact hp

/-- On entry of a node its visitors are called. -/
theorem visit_does (n : Node) {around : UnitShape} {outer : List UnitShape}
    (h : s.shapes = around :: outer) :
    e.Does file s (e.visit file n s)
      (e.plan.entryCalls n (around.unit :: outer.map UnitShape.unit)) (around :: outer) := by
  obtain ⟨u, units, hu, -, -⟩ := ScanState.units_of_shapes h
  have nodes : ∀ t : ScanState σ α, t.shapes = around :: outer →
      e.Does file t (e.callEach file (Hook.question n .node) (e.plan.subscribers n.kind) t)
        (callsFor .node (e.plan.subscribers n.kind) n
          (around.unit :: outer.map UnitShape.unit)) (around :: outer) :=
    fun t ht => callEach_does e file .node n (e.plan.subscribers n.kind) ht
  cases htoken : n.token with
  | none =>
      have hv : e.visit file n s =
          e.callEach file (Hook.question n .node) (e.plan.subscribers n.kind) s := by
        simp only [visit, hu, htoken]
        rfl
      rw [hv, DispatchPlan.entryCalls, htoken]
      exact nodes s h
  | some token =>
      have hv : e.visit file n s =
          (e.callEach file (Hook.question n .token) e.plan.tokenObservers s).bind
            (e.callEach file (Hook.question n .node) (e.plan.subscribers n.kind)) := by
        have hask : Hook.question n .token =
            fun (v : Visitor σ α) memory view => v.visitToken memory n token view := by
          funext v memory view
          simp only [Hook.question, htoken]
        rw [hask]
        simp only [visit, hu, htoken]
        rfl
      rw [hv, DispatchPlan.entryCalls, htoken]
      exact (callEach_does e file .token n e.plan.tokenObservers h).bind nodes

omit [Amount α] in
/-- Whether a node is claimed rests on the innermost shape alone. -/
theorem claim_eq (above : List Node) (n : Node) {around : UnitShape} {outer : List UnitShape}
    (h : s.shapes = around :: outer) :
    e.claim above n s =
      .ok (UnitExtractor.firstClaim e.extractors n ⟨above, around.unit.kind, around.unit.key⟩) := by
  obtain ⟨u, units, hu, rfl, -⟩ := ScanState.units_of_shapes h
  unfold claim
  by_cases hx : e.extractors.isEmpty
  · rw [if_pos hx, List.isEmpty_iff.mp hx]
    rfl
  · rw [if_neg hx]
    simp only [hu]
    rfl

/-- To open a unit is to open the claimed one with a key made free. -/
theorem openUnit_does (above : List Node) (n : Node) {spec : UnitSpec} {around : UnitShape}
    {outer : List UnitShape} (h : s.shapes = around :: outer)
    (hclaim : UnitExtractor.firstClaim e.extractors n
      ⟨above, around.unit.kind, around.unit.key⟩ = some spec) :
    ∃ unit, claimedUnit e.extractors above around n = some unit ∧
      e.Does file s (openUnit spec n.span.startCol s) [.opening unit]
        (⟨unit, []⟩ :: around :: outer) := by
  obtain ⟨u, units, hu, hshape, -⟩ := ScanState.units_of_shapes h
  have hkey : u.uniqueKey spec.key n.span.startCol =
      OpenUnit.freeKey around.keysBelow spec.key n.span.startCol := by
    rw [OpenUnit.uniqueKey_eq_freeKey, hshape]
  refine ⟨{ spec with key := OpenUnit.freeKey around.keysBelow spec.key n.span.startCol }, ?_, ?_⟩
  · rw [claimedUnit, hclaim]
    rfl
  · rw [← hkey]
    refine ⟨s.opened { spec with key := u.uniqueKey spec.key n.span.startCol } u.key, ?_, ?_, ?_⟩
    · simp only [openUnit, hu, ScanState.opened]
    · simp only [performAll, perform, hu]
      rfl
    · rw [← h]
      rfl

/-- To close a unit folds its shape into the one around it. -/
theorem closeUnit_does {inner around : UnitShape} {outer : List UnitShape}
    (h : s.shapes = inner :: around :: outer) :
    e.Does file s (e.closeUnit file s) [.closing] (around.add [inner] :: outer) := by
  obtain ⟨u, units, hu, hinner, hrest⟩ := ScanState.units_of_shapes h
  obtain ⟨parent, units', rfl, haround, houter⟩ := List.map_eq_cons_iff.mp hrest
  have hclose : e.closeUnit file s =
      .ok { s with units := parent.addChild e.registry (u.finish e.registry) :: units' } := by
    simp only [closeUnit, hu]
  refine ⟨_, hclose, ?_, ?_⟩
  · simp only [performAll, perform, hclose]
    rfl
  · simp only [ScanState.shapes, List.map_cons, OpenUnit.shape_addChild, OpenUnit.shape_finish,
      hinner, haround, houter]

/-- A node that starts no unit is entered by its calls. -/
theorem enter_unclaimed (above : List Node) (n : Node) {around : UnitShape}
    {outer : List UnitShape} (h : s.shapes = around :: outer)
    (hunit : claimedUnit e.extractors above around n = none) :
    e.enter file above n s = (e.visit file n s).bind fun t => .ok (t, false) := by
  have hclaim := claim_eq e above n h
  rw [claimedUnit, Option.map_eq_none_iff] at hunit
  rw [hunit] at hclaim
  simp only [enter, hclaim]
  rfl

/-- A node that starts a unit is entered by opening it and by its calls. -/
theorem enter_claimed (above : List Node) (n : Node) {around : UnitShape} {unit : UnitSpec}
    {outer : List UnitShape} (h : s.shapes = around :: outer)
    (hunit : claimedUnit e.extractors above around n = some unit) :
    ∃ t, e.Does file s (.ok t) [.opening unit] (⟨unit, []⟩ :: around :: outer) ∧
      e.enter file above n s = (e.visit file n t).bind fun t => .ok (t, true) := by
  obtain ⟨spec, hspec, -⟩ := Option.map_eq_some_iff.mp hunit
  obtain ⟨unit', hunit', t, hopen, hp, ht⟩ := openUnit_does e file above n h hspec
  obtain rfl : unit' = unit := Option.some.inj (hunit'.symm.trans hunit)
  refine ⟨t, ⟨t, rfl, hp, ht⟩, ?_⟩
  have hclaim := claim_eq e above n h
  rw [hspec] at hclaim
  simp only [enter, hclaim, bind, Except.bind, hopen]
  rfl

/-- The exit from a node that started no unit. -/
theorem leave_unopened (n : Node) (s : ScanState σ α) :
    e.leave file n false s =
      e.callEach file (Hook.question n .leave) (e.plan.subscribers n.kind) s := by
  simp only [leave, Bool.false_eq_true, if_false]
  exact bind_pure _

/-- The walk of a node that starts no unit, part by part. -/
theorem walk_unclaimed (above : List Node) (n : Node) {around : UnitShape}
    {outer : List UnitShape} (h : s.shapes = around :: outer)
    (hunit : claimedUnit e.extractors above around n = none) :
    n.walk (e.pass file) above s =
      (e.visit file n s).bind fun t =>
        (Node.walkList (e.pass file) (n :: above) n.children t).bind
          (e.callEach file (Hook.question n .leave) (e.plan.subscribers n.kind)) := by
  have henter : (e.pass file).enter above n s =
      (e.visit file n s).bind fun t => .ok (t, false) := enter_unclaimed e file above n h hunit
  have hleave : (e.pass file).leave n false =
      e.callEach file (Hook.question n .leave) (e.plan.subscribers n.kind) :=
    funext (leave_unopened e file n)
  rw [Node.walk_eq, henter, ← hleave]
  cases e.visit file n s with
  | error err => rfl
  | ok t => rfl

/-- The walk of a node that starts a unit, part by part; `t` is the state
once the unit is open. -/
theorem walk_claimed (above : List Node) (n : Node) {t : ScanState σ α}
    (henter : e.enter file above n s = (e.visit file n t).bind fun t => .ok (t, true)) :
    n.walk (e.pass file) above s =
      (e.visit file n t).bind fun t =>
        (Node.walkList (e.pass file) (n :: above) n.children t).bind fun t =>
          (e.callEach file (Hook.question n .leave) (e.plan.subscribers n.kind) t).bind
            (e.closeUnit file) := by
  have henter' : (e.pass file).enter above n s =
      (e.visit file n t).bind fun t => .ok (t, true) := henter
  rw [Node.walk_eq, henter']
  cases e.visit file n t with
  | error err => rfl
  | ok t => rfl

mutual
/-- A walk does the acts of the marked tree, and adds to the innermost open
unit what the tree contracts to. -/
theorem walk_does (above : List Node) (around : UnitShape) (outer : List UnitShape) :
    ∀ (n : Node) (s : ScanState σ α), s.shapes = around :: outer →
      e.Does file s (n.walk (e.pass file) above s)
        ((n.mark e.extractors above around).acts e.plan
          (around.unit :: outer.map UnitShape.unit))
        (around.add (n.mark e.extractors above around).contract :: outer)
  | ⟨kind, span, field, token, children⟩, s, h => by
      let n : Node := ⟨kind, span, field, token, children⟩
      show e.Does file s (n.walk (e.pass file) above s)
        ((n.mark e.extractors above around).acts e.plan
          (around.unit :: outer.map UnitShape.unit))
        (around.add (n.mark e.extractors above around).contract :: outer)
      rw [Node.mark_eq]
      cases hunit : claimedUnit e.extractors above around n with
      | none =>
          rw [walk_unclaimed e file above n h hunit, Marked.acts, List.append_assoc]
          refine (visit_does e file n h).bind fun t ht => ?_
          refine (walkList_does (n :: above) around outer children t ht).bind fun t' ht' => ?_
          exact callEach_does e file .leave n (e.plan.subscribers n.kind) ht'
      | some unit =>
          obtain ⟨t, hopen, henter⟩ := enter_claimed e file above n h hunit
          rw [walk_claimed e file above n henter, Marked.acts]
          simp only [List.append_assoc]
          refine hopen.after fun ht => ?_
          refine (visit_does e file n ht).bind fun t ht => ?_
          refine (walkList_does (n :: above) ⟨unit, []⟩ (around :: outer) children t ht).bind
            fun t ht => ?_
          refine (callEach_does e file .leave n (e.plan.subscribers n.kind) ht).bind fun t ht => ?_
          exact closeUnit_does e file ht
theorem walkList_does (above : List Node) (around : UnitShape) (outer : List UnitShape) :
    ∀ (ns : List Node) (s : ScanState σ α), s.shapes = around :: outer →
      e.Does file s (Node.walkList (e.pass file) above ns s)
        (Marked.actsList e.plan (around.unit :: outer.map UnitShape.unit)
          (Node.markList e.extractors above around ns))
        (around.add (Marked.contractList (Node.markList e.extractors above around ns)) :: outer)
  | [], s, h => by
      rw [Node.markList, Marked.contractList, UnitShape.add_nil]
      exact Does.refl h
  | n :: ns, s, h => by
      have hw : Node.walkList (e.pass file) above (n :: ns) s =
          (n.walk (e.pass file) above s).bind (Node.walkList (e.pass file) above ns) := rfl
      rw [hw, Node.markList, Marked.actsList, Marked.contractList, ← UnitShape.add_add]
      exact (walk_does above around outer n s h).bind fun t ht =>
        walkList_does above _ outer ns t ht
end

/-! ## A whole file -/

theorem shapes_start (e : Engine σ α) (file : String) (root : Node) (memories : List σ)
    (events : List (Event α)) :
    (e.start file root memories events).shapes = [⟨fileSpec file root, []⟩] := by
  unfold start fileUnit
  cases e.filesMetric <;> rfl

/-- The tree of a file, from its unit and the lines marked. -/
def treeOf (e : Engine σ α) (s : ScanState σ α) (u : OpenUnit α) : UnitTree α :=
  { u.finish e.registry with noSonarLines := s.noSonarLines.toList }

/-- A file is finished where its unit alone is open; the tree has the shape
that unit has. -/
theorem finishFile_eq {file : String} {root : Node} {below : List UnitShape}
    {s : ScanState σ α} (h : s.shapes = [⟨fileSpec file root, below⟩]) :
    ∃ u, s.units = [u] ∧ e.finishFile file s = .ok (e.treeOf s u) ∧
      (e.treeOf s u).shape = ⟨fileSpec file root, below⟩ := by
  obtain ⟨u, units, hu, hshape, hunits⟩ := ScanState.units_of_shapes h
  obtain rfl : units = [] := List.map_eq_nil_iff.mp hunits
  have hkind : u.kind = .file := congrArg (fun shape => shape.unit.kind) hshape
  refine ⟨u, hu, ?_, ?_⟩
  · simp only [finishFile, hu, hkind]
    rfl
  · exact (OpenUnit.shape_finish e.registry u).trans hshape

/-- The three stretches of a pass: all visitors at the start of the file,
the walk of its tree, and all visitors at its end. -/
def passOver (e : Engine σ α) (file : String) (root : Node) (s : ScanState σ α) :
    Except ScanError (ScanState σ α) :=
  (e.callEach file (Hook.question root .file) e.positions s).bind fun s =>
    (root.walk (e.pass file) [] s).bind
      (e.callEach file (Hook.question root .leaveFile) e.positions)

theorem traverse_eq_passOver (e : Engine σ α) (file : String) (root : Node) (memories : List σ)
    (events : List (Event α)) :
    e.traverse file root memories events =
      (e.passOver file root (e.start file root memories events)).bind fun s =>
        (e.finishFile file s).bind fun tree => .ok (tree, s) := by
  have hassoc : ∀ {A B C : Type} (x : Except ScanError A) (f : A → Except ScanError B)
      (g : B → Except ScanError C), (x.bind f).bind g = x.bind fun a => (f a).bind g :=
    fun x f g => bind_assoc x f g
  rw [passOver, hassoc]
  simp only [traverse, traverseBy, Node.walkStack_eq_walk, hassoc]
  rfl

/-- The stretches of a pass do the acts of the schedule. -/
theorem passOver_does (e : Engine σ α) (file : String) (root : Node) {s : ScanState σ α}
    (h : s.shapes = [⟨fileSpec file root, []⟩]) :
    e.Does file s (e.passOver file root s) (e.schedule file root)
      [⟨fileSpec file root, (e.marking file root).contract⟩] := by
  rw [schedule, List.append_assoc]
  refine (callEach_does e file .file root e.positions h).bind fun t ht => ?_
  refine (walk_does e file [] ⟨fileSpec file root, []⟩ [] root t ht).bind fun t ht => ?_
  exact callEach_does e file .leaveFile root e.positions ht

/-- A pass over a file always comes to a tree.  It does the acts of the
schedule, and the tree has the shape the file contracts to. -/
theorem traverse_does (e : Engine σ α) (file : String) (root : Node) (memories : List σ)
    (events : List (Event α)) :
    ∃ s u, e.performAll file (e.schedule file root) (e.start file root memories events) = some s ∧
      s.units = [u] ∧
      e.traverse file root memories events = .ok (e.treeOf s u, s) ∧
      (e.treeOf s u).shape = ⟨fileSpec file root, (e.marking file root).contract⟩ := by
  obtain ⟨s, hpass, hperform, hs⟩ :=
    passOver_does e file root (shapes_start e file root memories events)
  obtain ⟨u, hu, hfinish, hshape⟩ := finishFile_eq e hs
  refine ⟨s, u, hperform, hu, ?_, hshape⟩
  rw [traverse_eq_passOver, hpass]
  show (e.finishFile file s).bind _ = _
  rw [hfinish]
  rfl

end Engine
end SourceMetrics
