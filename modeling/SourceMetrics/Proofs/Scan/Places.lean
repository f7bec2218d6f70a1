/-
# Which unit a node falls to

The units of a file stand in one row, each before those below it, the unit
of the file first.  As a pass goes through the tree, the units it has opened
so far are the first ones of that row, so that each has its number in the
row from the moment it is opened.

`Marked.hosted` lists the nodes of a marked tree in their order, each with
the number of the innermost unit that is open at it.  A node that starts a
unit falls to that unit itself:

    0  program
       ├─ class*          1
       │  ├─ identifier   1
       │  └─ method*      2
       └─ identifier      0

Where a pass stands among the units is a matter of its acts alone
(`Places.after`), and the open units of its state have just these numbers
(`Engine.places_of_performed`).
-/
import Mathlib.Data.List.Nodup
import SourceMetrics.Proofs.Scan.Solo
import SourceMetrics.Proofs.Scan.Traversal

namespace SourceMetrics

/-! ## Nodes with their units -/

/-- A node with the number of the innermost unit that is open at it. -/
structure PlacedNode where
  unit : Nat
  node : Node

/-- A token with its node and the number of the innermost unit that is open
at it. -/
structure PlacedToken where
  unit : Nat
  node : Node
  token : Token

/-- The token of a placed node, where it has one. -/
def PlacedNode.token? (c : PlacedNode) : Option PlacedToken :=
  c.node.token.map (⟨c.unit, c.node, ·⟩)

namespace Marked

/-- The units a marked tree opens, in their order. -/
def units (m : Marked) : List UnitSpec := m.preorder.filterMap Marked.unit

/-- The units that marked trees side by side open, in their order. -/
def unitsList (ms : List Marked) : List UnitSpec := (preorderList ms).filterMap Marked.unit

theorem units_eq (n : Node) (unit : Option UnitSpec) (children : List Marked) :
    (⟨n, unit, children⟩ : Marked).units = unit.toList ++ unitsList children := by
  rw [units, preorder, List.filterMap_cons]
  cases unit <;> rfl

theorem unitsList_cons (m : Marked) (ms : List Marked) :
    unitsList (m :: ms) = m.units ++ unitsList ms := by
  rw [unitsList, preorderList, List.filterMap_append]
  rfl

mutual
/-- The nodes of a marked tree, each with its unit: `here` is the number of
the unit around the tree, and `next` that of the next unit to be opened. -/
def hosted (here next : Nat) : Marked → List PlacedNode
  | ⟨n, some _, children⟩ => ⟨next, n⟩ :: hostedList next (next + 1) children
  | ⟨n, none, children⟩ => ⟨here, n⟩ :: hostedList here next children

/-- The nodes of marked trees side by side, each with its unit. -/
def hostedList (here next : Nat) : List Marked → List PlacedNode
  | [] => []
  | m :: ms => m.hosted here next ++ hostedList here (next + m.units.length) ms
end

mutual
/-- Without the numbers, these are the nodes of the tree in their order. -/
theorem map_node_hosted (here next : Nat) :
    ∀ m : Marked, (m.hosted here next).map PlacedNode.node = m.preorder.map Marked.node
  | ⟨n, some unit, children⟩ => by
      rw [hosted, List.map_cons, map_node_hostedList next (next + 1) children]
      rfl
  | ⟨n, none, children⟩ => by
      rw [hosted, List.map_cons, map_node_hostedList here next children]
      rfl
theorem map_node_hostedList (here next : Nat) :
    ∀ ms : List Marked,
      (hostedList here next ms).map PlacedNode.node = (preorderList ms).map Marked.node
  | [] => rfl
  | m :: ms => by
      rw [hostedList, preorderList, List.map_append, List.map_append, map_node_hosted here next m,
        map_node_hostedList here (next + m.units.length) ms]
end

mutual
/-- For the nodes of a marked tree, in their order, the innermost unit open
there; `around` is open around the tree. -/
def innermost (around : UnitSpec) : Marked → List UnitSpec
  | ⟨_, unit, children⟩ => unit.getD around :: innermostList (unit.getD around) children

/-- The same for marked trees side by side. -/
def innermostList (around : UnitSpec) : List Marked → List UnitSpec
  | [] => []
  | m :: ms => m.innermost around ++ innermostList around ms
end

/-- The numbers name units of a row. -/
abbrev Names (row : List UnitSpec) : List PlacedNode → List UnitSpec → Prop :=
  List.Forall₂ fun c unit => row[c.unit]? = some unit

theorem Names.append_right {row : List UnitSpec} {cs : List PlacedNode} {us : List UnitSpec}
    (h : Names row cs us) (more : List UnitSpec) : Names (row ++ more) cs us := by
  refine h.imp fun c unit hunit => ?_
  rw [List.getElem?_append_left (List.getElem?_eq_some_iff.mp hunit).1]
  exact hunit

mutual
/-- The numbers are those of the innermost units, in the row of the units
opened before and of those of the tree. -/
theorem names_hosted {row : List UnitSpec} {here : Nat} {around : UnitSpec}
    (hhere : row[here]? = some around) :
    ∀ m : Marked, Names (row ++ m.units) (m.hosted here row.length) (m.innermost around)
  | ⟨n, some unit, children⟩ => by
      have hunit : (row ++ [unit])[row.length]? = some unit := List.getElem?_concat_length
      have hchildren := names_hostedList hunit children
      rw [List.append_assoc, List.length_append] at hchildren
      refine .cons ?_ hchildren
      rw [units_eq, List.getElem?_append_right (Nat.le_refl _), Nat.sub_self]
      rfl
  | ⟨n, none, children⟩ => by
      refine .cons ?_ (names_hostedList hhere children)
      rw [List.getElem?_append_left (List.getElem?_eq_some_iff.mp hhere).1]
      exact hhere
theorem names_hostedList {row : List UnitSpec} {here : Nat} {around : UnitSpec}
    (hhere : row[here]? = some around) :
    ∀ ms : List Marked,
      Names (row ++ unitsList ms) (hostedList here row.length ms) (innermostList around ms)
  | [] => .nil
  | m :: ms => by
      have hrest : (row ++ m.units)[here]? = some around := by
        rw [List.getElem?_append_left (List.getElem?_eq_some_iff.mp hhere).1]
        exact hhere
      have hms := names_hostedList hrest ms
      rw [List.length_append] at hms
      rw [unitsList_cons, ← List.append_assoc]
      exact List.rel_append ((names_hosted hhere m).append_right _) hms
end

mutual
/-- Where just the nodes of one sort start a unit of one sort, these nodes
fall to these units, one to each. -/
theorem openers_hosted {p : Node → Bool} {q : UnitSpec → Bool} (here next : Nat) :
    ∀ m : Marked, (∀ x ∈ m.preorder, p x.node = x.unit.any q) →
      ((m.hosted here next).filter (p ·.node)).map PlacedNode.unit =
        ((m.units.zipIdx next).filter (q ·.1)).map Prod.snd
  | ⟨n, some unit, children⟩, h => by
      obtain ⟨hroot, hrest⟩ := List.forall_mem_cons.mp h
      have hroot : p n = q unit := hroot
      have hchildren := openers_hostedList next (next + 1) children hrest
      rw [hosted, units_eq, Option.toList_some, List.singleton_append, List.zipIdx_cons,
        List.filter_cons, List.filter_cons]
      simp only [hroot]
      split
      · rw [List.map_cons, List.map_cons, hchildren]
      · exact hchildren
  | ⟨n, none, children⟩, h => by
      obtain ⟨hroot, hrest⟩ := List.forall_mem_cons.mp h
      have hroot : p n = false := hroot
      have hchildren := openers_hostedList here next children hrest
      rw [hosted, units_eq, Option.toList_none, List.nil_append, List.filter_cons]
      simp only [hroot, Bool.false_eq_true, if_false]
      exact hchildren
theorem openers_hostedList {p : Node → Bool} {q : UnitSpec → Bool} (here next : Nat) :
    ∀ ms : List Marked, (∀ x ∈ preorderList ms, p x.node = x.unit.any q) →
      ((hostedList here next ms).filter (p ·.node)).map PlacedNode.unit =
        (((unitsList ms).zipIdx next).filter (q ·.1)).map Prod.snd
  | [], _ => rfl
  | m :: ms, h => by
      obtain ⟨hm, hms⟩ := List.forall_mem_append.mp h
      rw [hostedList, unitsList_cons, List.zipIdx_append, List.filter_append, List.filter_append,
        List.map_append, List.map_append, openers_hosted here next m hm,
        openers_hostedList here (next + m.units.length) ms hms]
end

end Marked

/-! ## Where a pass stands -/

/-- The numbers of the open units, the innermost first, and how many units
there are so far. -/
structure Places where
  within : List Nat
  count : Nat

namespace Places

/-- The unit of a file alone. -/
def first : Places := ⟨[0], 1⟩

/-- The number of the innermost unit. -/
def here (p : Places) : Nat := p.within.headD 0

/-- Where an act leads: a unit that is opened gets the next number. -/
def after (p : Places) : Act → Places
  | .opening _ => ⟨p.count :: p.within, p.count + 1⟩
  | .calling _ _ _ _ => p
  | .closing => ⟨p.within.tail, p.count⟩

/-- Where acts one after the other lead. -/
def afterAll (p : Places) (acts : List Act) : Places := acts.foldl after p

theorem afterAll_append (p : Places) (as bs : List Act) :
    p.afterAll (as ++ bs) = (p.afterAll as).afterAll bs :=
  List.foldl_append

theorem afterAll_callsFor (p : Places) (hook : Hook) (positions : List Nat) (n : Node)
    (within : List UnitSpec) : p.afterAll (callsFor hook positions n within) = p := by
  induction positions with
  | nil => rfl
  | cons position rest ih => exact ih

theorem afterAll_entryCalls (p : Places) (plan : DispatchPlan) (n : Node)
    (within : List UnitSpec) : p.afterAll (plan.entryCalls n within) = p := by
  rw [DispatchPlan.entryCalls, afterAll_append, afterAll_callsFor]
  split
  · exact afterAll_callsFor p .token _ n within
  · rfl

mutual
/-- The acts of a tree open its units and leave the same ones open as
before. -/
theorem afterAll_acts (plan : DispatchPlan) (p : Places) :
    ∀ (m : Marked) (within : List UnitSpec),
      p.afterAll (m.acts plan within) = ⟨p.within, p.count + m.units.length⟩
  | ⟨n, some unit, children⟩, within => by
      have hopening : p.afterAll [.opening unit] = ⟨p.count :: p.within, p.count + 1⟩ := rfl
      simp only [Marked.acts, afterAll_append, hopening, afterAll_entryCalls,
        afterAll_actsList plan _ children, DispatchPlan.exitCalls, afterAll_callsFor]
      rw [Marked.units_eq, Option.toList_some, List.singleton_append, List.length_cons,
        Nat.add_comm (Marked.unitsList children).length, ← Nat.add_assoc]
      rfl
  | ⟨n, none, children⟩, within => by
      simp only [Marked.acts, afterAll_append, afterAll_entryCalls,
        afterAll_actsList plan _ children, DispatchPlan.exitCalls, afterAll_callsFor]
      rw [Marked.units_eq, Option.toList_none, List.nil_append]
theorem afterAll_actsList (plan : DispatchPlan) (p : Places) :
    ∀ (ms : List Marked) (within : List UnitSpec),
      p.afterAll (Marked.actsList plan within ms) =
        ⟨p.within, p.count + (Marked.unitsList ms).length⟩
  | [], _ => rfl
  | m :: ms, within => by
      rw [Marked.actsList, afterAll_append, afterAll_acts plan p m,
        afterAll_actsList plan _ ms, Marked.unitsList_cons, List.length_append, Nat.add_assoc]
end

end Places

/-! ## The numbers of open units -/

namespace OpenUnit

variable {α : Type}

/-- How many units there are from an open unit on, down to the next one that
is open. -/
def extent (u : OpenUnit α) : Nat := u.below.length + 1

/-- How many units there are on open units. -/
def extentAll (units : List (OpenUnit α)) : Nat := (units.map extent).sum

theorem extentAll_cons (u : OpenUnit α) (outer : List (OpenUnit α)) :
    extentAll (u :: outer) = extentAll outer + u.extent := by
  rw [extentAll, List.map_cons, List.sum_cons, Nat.add_comm]
  rfl

/-- The number of each open unit, the innermost first: as many as there are
units further out. -/
def numbers : List (OpenUnit α) → List Nat
  | [] => []
  | _ :: outer => extentAll outer :: numbers outer

end OpenUnit

namespace ScanState

variable {σ α : Type}

/-- Where the pass stands in a state. -/
def places (s : ScanState σ α) : Places := ⟨OpenUnit.numbers s.units, OpenUnit.extentAll s.units⟩

theorem here_places {s : ScanState σ α} {u : OpenUnit α} {outer : List (OpenUnit α)}
    (h : s.units = u :: outer) : s.places.here = OpenUnit.extentAll outer := by
  rw [Places.here, places, h]
  rfl

end ScanState

namespace Engine

variable {σ α : Type}

theorem places_start [Amount α] (e : Engine σ α) (file : String) (root : Node)
    (memories : List σ) (events : List (Event α)) :
    (e.start file root memories events).places = .first := by
  unfold start fileUnit
  cases e.filesMetric <;> rfl

/-- Each act leads the state to where it leads by itself. -/
theorem places_of_performed [Amount α] {e : Engine σ α} {file : String} {s t : ScanState σ α}
    {a : Act} (h : e.Performed file s a t) : t.places = s.places.after a := by
  cases h with
  | @opening unit parent outer hu =>
      have hunits : (s.opened unit parent.key).units =
          .new unit.kind unit.key unit.startLine :: s.units := rfl
      rw [ScanState.places, hunits, OpenUnit.numbers, OpenUnit.extentAll_cons]
      rfl
  | @answered hook position node u outer v memory hu hv hm =>
      rw [Places.after, ScanState.places, ScanState.places, hu]
      rfl
  | unanswered => rfl
  | @closing u parent outer hu =>
      have hextent : (parent.addChild e.registry (u.finish e.registry)).extent =
          parent.extent + u.extent := by
        rw [OpenUnit.extent, OpenUnit.below_addChild, List.length_append, List.length_cons]
        simp only [OpenUnit.extent]
        omega
      rw [Places.after, ScanState.places, ScanState.places, hu, OpenUnit.extentAll_cons,
        OpenUnit.extentAll_cons, OpenUnit.extentAll_cons, hextent, Nat.add_assoc]
      rfl

variable (e : Engine σ α) (file : String) (root : Node)

/-- The nodes of a file in their order, each with the number of the unit it
falls to; the unit of the file has number 0. -/
def hosted : List PlacedNode := (e.marking file root).hosted 0 1

/-- The tokens of a file in their order, each with the number of the unit it
falls to. -/
def placedTokens : List PlacedToken := (e.hosted file root).filterMap PlacedNode.token?

theorem map_node_hosted : (e.hosted file root).map PlacedNode.node = root.preorder := by
  rw [hosted, Marked.map_node_hosted]
  exact Node.preorder_mark [] _ root

/-- The tokens are those of the nodes of the tree. -/
theorem map_token_placedTokens :
    (e.placedTokens file root).map PlacedToken.token = root.preorder.filterMap Node.token := by
  rw [← e.map_node_hosted file root, placedTokens, List.map_filterMap, List.filterMap_map]
  refine List.filterMap_congr fun c _ => ?_
  rw [PlacedNode.token?, Option.map_map]
  exact Option.map_id'

/-- The units of a file that was passed over: its own and those that its
marked tree opens. -/
theorem specs_of_traverse [Amount α] {memories : List σ} {events : List (Event α)}
    {tree : UnitTree α} {s : ScanState σ α}
    (h : e.traverse file root memories events = .ok (tree, s)) :
    tree.preorder.map UnitTree.spec = fileSpec file root :: (e.marking file root).units := by
  obtain ⟨tree', s', htraverse, -, hspecs, -⟩ := e.traverse_contracts file root memories events
  cases h.symm.trans htraverse
  exact hspecs

/-- The number of each node is that of the innermost unit open there, among
the units of the file. -/
theorem names_of_traverse [Amount α] {memories : List σ} {events : List (Event α)}
    {tree : UnitTree α} {s : ScanState σ α}
    (h : e.traverse file root memories events = .ok (tree, s)) :
    Marked.Names (tree.preorder.map UnitTree.spec) (e.hosted file root)
      ((e.marking file root).innermost (fileSpec file root)) := by
  have hfile : [fileSpec file root][0]? = some (fileSpec file root) := rfl
  rw [e.specs_of_traverse file root h]
  exact Marked.names_hosted hfile (e.marking file root)

/-- Where just the nodes of one sort start a unit of one sort, each of these
units has one such node that falls to it, and every other unit has none. -/
theorem count_openers [Amount α] {memories : List σ} {events : List (Event α)}
    {tree : UnitTree α} {s : ScanState σ α}
    (h : e.traverse file root memories events = .ok (tree, s)) {p : Node → Bool}
    {q : UnitSpec → Bool} (hopens : ∀ x ∈ (e.marking file root).preorder, p x.node = x.unit.any q)
    (hfile : q (fileSpec file root) = false) {i : Nat} {u : UnitTree α}
    (hu : tree.preorder[i]? = some u) :
    (((e.hosted file root).filter (p ·.node)).map PlacedNode.unit).count i =
      if q u.spec then 1 else 0 := by
  have hopeners := Marked.openers_hosted 0 1 (e.marking file root) hopens
  have hrow : ((e.marking file root).units.zipIdx 1).filter (q ·.1) =
      ((fileSpec file root :: (e.marking file root).units).zipIdx).filter (q ·.1) := by
    rw [List.zipIdx_cons, List.filter_cons, hfile]
    rfl
  rw [hrow, ← e.specs_of_traverse file root h] at hopeners
  have hspec : (tree.preorder.map UnitTree.spec)[i]? = some u.spec := by
    rw [List.getElem?_map, hu]
    rfl
  rw [hosted, hopeners]
  split
  next hq =>
    have hnodup : (((tree.preorder.map UnitTree.spec).zipIdx.filter (q ·.1)).map
        Prod.snd).Nodup := by
      refine List.Nodup.sublist (List.filter_sublist.map _) ?_
      rw [List.zipIdx_map_snd]
      exact List.nodup_range'
    refine List.count_eq_one_of_mem hnodup (List.mem_map.mpr ⟨(u.spec, i), ?_, rfl⟩)
    exact List.mem_filter.mpr ⟨List.mk_mem_zipIdx_iff_getElem?.mpr hspec, hq⟩
  next hq =>
    refine List.count_eq_zero_of_not_mem fun hmem => ?_
    obtain ⟨⟨unit, j⟩, hunit, rfl⟩ := List.mem_map.mp hmem
    obtain ⟨hat, hqunit⟩ := List.mem_filter.mp hunit
    obtain rfl := Option.some.inj ((List.mk_mem_zipIdx_iff_getElem?.mp hat).symm.trans hspec)
    exact hq hqunit

/-- Where just the nodes of one sort start a unit of one sort, there are as
many of the units as of the nodes. -/
theorem length_openers [Amount α] {memories : List σ} {events : List (Event α)}
    {tree : UnitTree α} {s : ScanState σ α}
    (h : e.traverse file root memories events = .ok (tree, s)) {p : Node → Bool}
    {q : UnitSpec → Bool} (hopens : ∀ x ∈ (e.marking file root).preorder, p x.node = x.unit.any q)
    (hfile : q (fileSpec file root) = false) :
    (tree.preorder.filter fun u => q u.spec).length = root.preorder.countP p := by
  have hspecs : (tree.preorder.map UnitTree.spec).countP q = (e.marking file root).units.countP q := by
    rw [e.specs_of_traverse file root h, List.countP_cons, hfile]
    rfl
  have hnodes : (e.marking file root).preorder.map Marked.node = root.preorder :=
    Node.preorder_mark [] _ root
  rw [← List.countP_eq_length_filter, ← hnodes, List.countP_map]
  rw [List.countP_map] at hspecs
  refine hspecs.trans ?_
  rw [Marked.units, List.countP_filterMap]
  refine List.countP_congr fun x hx => ?_
  rw [Function.comp_apply, hopens x hx]
  cases x.unit <;> rfl

end Engine
end SourceMetrics
