/-
# Trees laid out over ids

The index keeps a tree of units as a stretch of its arena: the root under
some id, each child and everything below it right behind.

    next        next + 1              next + 1 + size of the first child
    root   │    first child …    │    second child …    │  …

`UnitTree.number` writes this layout down for a tree by itself, with the
links between the units, and this module says what can be read off it: the
ids are the stretch without gaps (`map_id_number`), every unit but the root
is listed by the unit it names as its parent, which comes before it
(`parent_of_mem_number`), and a unit lists only units that name it
(`child_of_mem_number`).

The second half turns to an index that holds such a stretch, whatever else
it holds: from there `toTree` gives the tree back (`toTree_of_holds`), the
ids below the root are the rest of the stretch (`idsBelow_of_holds`), and
each place within the stretch holds a layout of its own
(`exists_holds_of_mem`).
-/
import SourceMetrics.Unit.Index

namespace SourceMetrics
namespace UnitTree

variable {α : Type}

/-! ## The layout -/

/-- The ids of trees side by side, when the first has id `next`. -/
def childIds (next : Nat) : List (UnitTree α) → List Nat
  | [] => []
  | t :: ts => next :: childIds (next + t.unitCount) ts

mutual
/-- The units of a tree with their ids, each before its children, the first
with id `next`. -/
def number (parent : Option Nat) (next : Nat) : UnitTree α → List (SourceUnit α)
  | ⟨kind, key, startLine, own, measures, noSonarLines, children⟩ =>
    ⟨next, kind, key, startLine, own, measures, noSonarLines, parent,
      childIds (next + 1) children⟩ :: numberList next (next + 1) children

/-- The units of several trees side by side below one unit. -/
def numberList (parent next : Nat) : List (UnitTree α) → List (SourceUnit α)
  | [] => []
  | t :: ts => t.number (some parent) next ++ numberList parent (next + t.unitCount) ts
end

/-- The root of a tree as a unit with an id. -/
def rootUnit (parent : Option Nat) (next : Nat) (t : UnitTree α) : SourceUnit α :=
  ⟨next, t.kind, t.key, t.startLine, t.own, t.measures, t.noSonarLines, parent,
    childIds (next + 1) t.children⟩

theorem number_eq (parent : Option Nat) (next : Nat) (t : UnitTree α) :
    t.number parent next = t.rootUnit parent next :: numberList next (next + 1) t.children := by
  cases t
  rfl

theorem unitCount_eq (t : UnitTree α) : t.unitCount = 1 + unitCountList t.children := by
  cases t
  rfl

theorem unitCount_pos (t : UnitTree α) : 0 < t.unitCount := by
  rw [unitCount_eq]
  omega

theorem unitCountList_eq_sum (ts : List (UnitTree α)) :
    unitCountList ts = (ts.map unitCount).sum := by
  induction ts with
  | nil => rfl
  | cons t ts ih => rw [unitCountList, ih, List.map_cons, List.sum_cons]

theorem length_childIds (next : Nat) (ts : List (UnitTree α)) :
    (childIds next ts).length = ts.length := by
  induction ts generalizing next with
  | nil => rfl
  | cons t ts ih => rw [childIds, List.length_cons, List.length_cons, ih]

theorem childIds_append (next : Nat) (ts us : List (UnitTree α)) :
    childIds next (ts ++ us) = childIds next ts ++ childIds (next + unitCountList ts) us := by
  induction ts generalizing next with
  | nil => rfl
  | cons t ts ih =>
      simp only [List.cons_append, childIds, unitCountList, ih, Nat.add_assoc]

theorem numberList_append (parent next : Nat) (ts us : List (UnitTree α)) :
    numberList parent next (ts ++ us) =
      numberList parent next ts ++ numberList parent (next + unitCountList ts) us := by
  induction ts generalizing next with
  | nil => rfl
  | cons t ts ih =>
      simp only [List.cons_append, numberList, unitCountList, ih, Nat.add_assoc,
        List.append_assoc]

/-! ## The ids of a layout -/

mutual
/-- The ids of a layout follow each other without gaps. -/
theorem map_id_number (parent : Option Nat) (next : Nat) :
    ∀ t : UnitTree α, (t.number parent next).map (·.id) = List.range' next t.unitCount
  | ⟨_, _, _, _, _, _, children⟩ => by
      rw [number, unitCount, List.map_cons, map_id_numberList next (next + 1) children,
        Nat.add_comm 1, List.range'_succ]
theorem map_id_numberList (parent next : Nat) :
    ∀ ts : List (UnitTree α),
      (numberList parent next ts).map (·.id) = List.range' next (unitCountList ts)
  | [] => rfl
  | t :: ts => by
      rw [numberList, unitCountList, List.map_append, map_id_number, map_id_numberList,
        List.range'_append_1]
end

theorem length_number (parent : Option Nat) (next : Nat) (t : UnitTree α) :
    (t.number parent next).length = t.unitCount := by
  rw [← List.length_map (·.id), map_id_number, List.length_range']

theorem length_numberList (parent next : Nat) (ts : List (UnitTree α)) :
    (numberList parent next ts).length = unitCountList ts := by
  rw [← List.length_map (·.id), map_id_numberList, List.length_range']

/-- A unit of a layout stands at its id. -/
theorem id_of_getElem?_number {parent : Option Nat} {next i : Nat} {t : UnitTree α}
    {u : SourceUnit α} (h : (t.number parent next)[i]? = some u) : u.id = next + i := by
  have hid : ((t.number parent next).map (·.id))[i]? = some u.id := by
    rw [List.getElem?_map, h]
    rfl
  rw [map_id_number] at hid
  obtain ⟨hi, heq⟩ := List.getElem?_eq_some_iff.mp hid
  rw [← heq, List.getElem_range', Nat.one_mul]

theorem mem_childIds_bounds {next c : Nat} {ts : List (UnitTree α)} (h : c ∈ childIds next ts) :
    next ≤ c ∧ c < next + unitCountList ts := by
  induction ts generalizing next with
  | nil => cases h
  | cons t ts ih =>
      have hpos := t.unitCount_pos
      rw [unitCountList]
      rcases List.mem_cons.mp h with rfl | h
      · omega
      · have := ih h
        omega

theorem pairwise_childIds (next : Nat) (ts : List (UnitTree α)) :
    (childIds next ts).Pairwise (· < ·) := by
  induction ts generalizing next with
  | nil => exact List.Pairwise.nil
  | cons t ts ih =>
      refine List.pairwise_cons.mpr ⟨?_, ih _⟩
      intro c hc
      have hpos := t.unitCount_pos
      have := mem_childIds_bounds hc
      omega

/-! ## The links of a layout -/

mutual
/-- A unit of a layout is its root, or it is listed by the unit it names as
its parent, which comes before it. -/
theorem parent_of_mem_number (parent : Option Nat) (next : Nat) :
    ∀ t : UnitTree α, ∀ w ∈ t.number parent next,
      w = t.rootUnit parent next ∨
        ∃ u ∈ t.number parent next, w.parent = some u.id ∧ w.id ∈ u.children ∧ u.id < w.id
  | ⟨kind, key, line, own, measures, lines, children⟩, w, hw => by
      rcases List.mem_cons.mp hw with rfl | hw
      · exact .inl rfl
      · right
        rcases parent_of_mem_numberList next (next + 1) children w hw with ⟨hp, hc⟩ | ⟨u, hu, h⟩
        · have hlt := (mem_childIds_bounds hc).1
          exact ⟨_, List.mem_cons_self, hp, hc, hlt⟩
        · exact ⟨u, List.mem_cons_of_mem _ hu, h⟩
theorem parent_of_mem_numberList (parent next : Nat) :
    ∀ ts : List (UnitTree α), ∀ w ∈ numberList parent next ts,
      (w.parent = some parent ∧ w.id ∈ childIds next ts) ∨
        ∃ u ∈ numberList parent next ts,
          w.parent = some u.id ∧ w.id ∈ u.children ∧ u.id < w.id
  | [], _, hw => absurd hw List.not_mem_nil
  | t :: ts, w, hw => by
      rcases List.mem_append.mp hw with hw | hw
      · rcases parent_of_mem_number (some parent) next t w hw with rfl | ⟨u, hu, h⟩
        · exact .inl ⟨rfl, List.mem_cons_self⟩
        · exact .inr ⟨u, List.mem_append_left _ hu, h⟩
      · rcases parent_of_mem_numberList parent _ ts w hw with ⟨hp, hc⟩ | ⟨u, hu, h⟩
        · exact .inl ⟨hp, List.mem_cons_of_mem _ hc⟩
        · exact .inr ⟨u, List.mem_append_right _ hu, h⟩
end

/-- Each of the trees side by side has its root in the layout. -/
theorem root_of_mem_childIds {parent next c : Nat} {ts : List (UnitTree α)}
    (hc : c ∈ childIds next ts) :
    ∃ w ∈ numberList parent next ts, w.id = c ∧ w.parent = some parent := by
  induction ts generalizing next with
  | nil => cases hc
  | cons t ts ih =>
      rcases List.mem_cons.mp hc with rfl | hc
      · refine ⟨t.rootUnit (some parent) c, List.mem_append_left _ ?_, rfl, rfl⟩
        rw [number_eq]
        exact List.mem_cons_self
      · obtain ⟨w, hw, h⟩ := ih hc
        exact ⟨w, List.mem_append_right _ hw, h⟩

mutual
/-- A unit of a layout lists units of the layout that name it as their
parent, each once. -/
theorem child_of_mem_number (parent : Option Nat) (next : Nat) :
    ∀ t : UnitTree α, ∀ u ∈ t.number parent next,
      u.children.Pairwise (· < ·) ∧
        ∀ c ∈ u.children, ∃ w ∈ t.number parent next, w.id = c ∧ w.parent = some u.id
  | ⟨kind, key, line, own, measures, lines, children⟩, u, hu => by
      rcases List.mem_cons.mp hu with rfl | hu
      · refine ⟨pairwise_childIds _ _, fun c hc => ?_⟩
        obtain ⟨w, hw, h⟩ := root_of_mem_childIds hc
        exact ⟨w, List.mem_cons_of_mem _ hw, h⟩
      · obtain ⟨hpairwise, hchild⟩ := child_of_mem_numberList next (next + 1) children u hu
        refine ⟨hpairwise, fun c hc => ?_⟩
        obtain ⟨w, hw, h⟩ := hchild c hc
        exact ⟨w, List.mem_cons_of_mem _ hw, h⟩
theorem child_of_mem_numberList (parent next : Nat) :
    ∀ ts : List (UnitTree α), ∀ u ∈ numberList parent next ts,
      u.children.Pairwise (· < ·) ∧
        ∀ c ∈ u.children, ∃ w ∈ numberList parent next ts, w.id = c ∧ w.parent = some u.id
  | [], _, hu => absurd hu List.not_mem_nil
  | t :: ts, u, hu => by
      rcases List.mem_append.mp hu with hu | hu
      · obtain ⟨hpairwise, hchild⟩ := child_of_mem_number (some parent) next t u hu
        refine ⟨hpairwise, fun c hc => ?_⟩
        obtain ⟨w, hw, h⟩ := hchild c hc
        exact ⟨w, List.mem_append_left _ hw, h⟩
      · obtain ⟨hpairwise, hchild⟩ := child_of_mem_numberList parent _ ts u hu
        refine ⟨hpairwise, fun c hc => ?_⟩
        obtain ⟨w, hw, h⟩ := hchild c hc
        exact ⟨w, List.mem_append_right _ hw, h⟩
end

end UnitTree

/-! ## An index that holds a layout -/

namespace UnitIndex

open UnitTree

variable {α : Type} {index : UnitIndex α}

/-- The index holds the given units side by side from an id on. -/
def Holds (index : UnitIndex α) (next : Nat) (us : List (SourceUnit α)) : Prop :=
  ∀ (i : Nat) (u : SourceUnit α), us[i]? = some u → index.get? (next + i) = some u

theorem Holds.left {next : Nat} {us vs : List (SourceUnit α)} (h : index.Holds next (us ++ vs)) :
    index.Holds next us := by
  intro i u hu
  refine h i u ?_
  rw [List.getElem?_append_left (List.getElem?_eq_some_iff.mp hu).1]
  exact hu

theorem Holds.right {next : Nat} {us vs : List (SourceUnit α)} (h : index.Holds next (us ++ vs)) :
    index.Holds (next + us.length) vs := by
  intro i u hu
  rw [Nat.add_assoc]
  refine h _ u ?_
  rw [List.getElem?_append_right (Nat.le_add_right _ _), Nat.add_sub_cancel_left]
  exact hu

theorem Holds.head {next : Nat} {u : SourceUnit α} {us : List (SourceUnit α)}
    (h : index.Holds next (u :: us)) : index.get? next = some u :=
  h 0 u rfl

theorem Holds.tail {next : Nat} {u : SourceUnit α} {us : List (SourceUnit α)}
    (h : index.Holds next (u :: us)) : index.Holds (next + 1) us := by
  intro i v hv
  rw [Nat.add_assoc, Nat.add_comm 1 i]
  exact h (i + 1) v hv

/-- The layout of a tree is that of its root and, behind it, of the trees
below. -/
theorem Holds.root {parent : Option Nat} {next : Nat} {t : UnitTree α}
    (h : index.Holds next (t.number parent next)) :
    index.get? next = some (t.rootUnit parent next) ∧
      index.Holds (next + 1) (numberList next (next + 1) t.children) := by
  rw [number_eq] at h
  exact ⟨h.head, h.tail⟩

/-- The layout of trees side by side is that of the first and, behind it, of
the others. -/
theorem Holds.cons {parent next : Nat} {t : UnitTree α} {ts : List (UnitTree α)}
    (h : index.Holds next (numberList parent next (t :: ts))) :
    index.Holds next (t.number (some parent) next) ∧
      index.Holds (next + t.unitCount) (numberList parent (next + t.unitCount) ts) := by
  rw [numberList] at h
  refine ⟨h.left, ?_⟩
  have hright := h.right
  rwa [length_number] at hright

theorem toTree_eq {id : Nat} {u : SourceUnit α} (h : index.get? id = some u) :
    index.toTree id = some ⟨u.kind, u.key, u.startLine, u.own, u.measures, u.noSonarLines,
      u.children.filterMap fun c => if id < c then index.toTree c else none⟩ := by
  rw [toTree]
  split
  next hnone => rw [hnone] at h; cases h
  next v hv =>
    obtain rfl := Option.some.inj (hv.symm.trans h)
    rfl

mutual
/-- Where the layout of a tree is, the tree is read back. -/
theorem toTree_of_holds (parent : Option Nat) (next : Nat) :
    ∀ t : UnitTree α, index.Holds next (t.number parent next) → index.toTree next = some t
  | ⟨kind, key, line, own, measures, lines, children⟩, h => by
      obtain ⟨hroot, hbelow⟩ := h.root
      have hchildren := filterMap_toTree_of_holds next (Nat.lt_succ_self next) children hbelow
      rw [toTree_eq hroot]
      simp only [rootUnit, hchildren]
theorem filterMap_toTree_of_holds {next : Nat} (parent : Nat) (hlt : parent < next) :
    ∀ ts : List (UnitTree α), index.Holds next (numberList parent next ts) →
      (childIds next ts).filterMap (fun c => if parent < c then index.toTree c else none) = ts
  | [], _ => rfl
  | t :: ts, h => by
      obtain ⟨hfirst, hrest⟩ := h.cons
      rw [childIds, List.filterMap_cons, if_pos hlt, toTree_of_holds (some parent) next t hfirst,
        filterMap_toTree_of_holds parent (Nat.lt_add_right _ hlt) ts hrest]
end

theorem childrenAfter_rootUnit (parent : Option Nat) (next : Nat) (t : UnitTree α) :
    childrenAfter next (t.rootUnit parent next) = childIds (next + 1) t.children := by
  refine List.filter_eq_self.mpr fun c hc => ?_
  have := (mem_childIds_bounds hc).1
  exact decide_eq_true (by omega)

mutual
/-- Where the layout of a tree is, the ids below its root are the rest of the
layout. -/
theorem idsBelow_of_holds (parent : Option Nat) (next : Nat) :
    ∀ t : UnitTree α, index.Holds next (t.number parent next) →
      index.idsBelow next = List.range' (next + 1) (t.unitCount - 1)
  | ⟨kind, key, line, own, measures, lines, children⟩, h => by
      obtain ⟨hroot, hbelow⟩ := h.root
      rw [idsBelow_eq hroot, childrenAfter_rootUnit,
        flatMap_idsBelow_of_holds next (next + 1) children hbelow, unitCount,
        Nat.add_sub_cancel_left]
theorem flatMap_idsBelow_of_holds (parent next : Nat) :
    ∀ ts : List (UnitTree α), index.Holds next (numberList parent next ts) →
      (childIds next ts).flatMap (fun c => c :: index.idsBelow c) =
        List.range' next (unitCountList ts)
  | [], _ => rfl
  | t :: ts, h => by
      obtain ⟨hfirst, hrest⟩ := h.cons
      have hcount : t.unitCount - 1 + 1 = t.unitCount := Nat.sub_add_cancel t.unitCount_pos
      rw [childIds, List.flatMap_cons, idsBelow_of_holds (some parent) next t hfirst,
        flatMap_idsBelow_of_holds parent _ ts hrest, ← List.range'_succ, hcount, unitCountList,
        List.range'_append_1]
end

mutual
/-- Each place within the layout of a tree starts the layout of a unit of the
tree, which ends no later. -/
theorem exists_holds_of_mem (parent : Option Nat) (next : Nat) {i : Nat} :
    ∀ t : UnitTree α, index.Holds next (t.number parent next) →
      next ≤ i → i < next + t.unitCount →
      ∃ (below : UnitTree α) (above : Option Nat), index.Holds i (below.number above i) ∧
        i + below.unitCount ≤ next + t.unitCount ∧ below ∈ t.preorder
  | ⟨kind, key, line, own, measures, lines, children⟩, h, hle, hlt => by
      rcases Nat.eq_or_lt_of_le hle with rfl | hgt
      · exact ⟨_, parent, h, Nat.le_refl _, List.mem_cons_self⟩
      · rw [unitCount] at hlt ⊢
        obtain ⟨below, above, hbelow, hend, hmem⟩ :=
          exists_holds_of_mem_list next (next + 1) children h.root.2 hgt (by omega)
        exact ⟨below, above, hbelow, by omega, List.mem_cons_of_mem _ hmem⟩
theorem exists_holds_of_mem_list (parent next : Nat) {i : Nat} :
    ∀ ts : List (UnitTree α), index.Holds next (numberList parent next ts) →
      next ≤ i → i < next + unitCountList ts →
      ∃ (below : UnitTree α) (above : Option Nat), index.Holds i (below.number above i) ∧
        i + below.unitCount ≤ next + unitCountList ts ∧ below ∈ preorderList ts
  | [], _, hle, hlt => absurd hlt (Nat.not_lt.mpr hle)
  | t :: ts, h, hle, hlt => by
      obtain ⟨hfirst, hrest⟩ := h.cons
      rw [unitCountList] at hlt ⊢
      rcases Nat.lt_or_ge i (next + t.unitCount) with hin | hout
      · obtain ⟨below, above, hbelow, hend, hmem⟩ :=
          exists_holds_of_mem (some parent) next t hfirst hle hin
        exact ⟨below, above, hbelow, by omega, List.mem_append_left _ hmem⟩
      · obtain ⟨below, above, hbelow, hend, hmem⟩ :=
          exists_holds_of_mem_list parent _ ts hrest hout (by omega)
        exact ⟨below, above, hbelow, by omega, List.mem_append_right _ hmem⟩
end

end UnitIndex
end SourceMetrics
