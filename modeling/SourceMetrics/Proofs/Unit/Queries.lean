/-
# What an index answers

An index represents the project with the accepted trees below it
(`Represents`).  What it answers is read off that tree:

* every accepted tree is given back as it was, now and after any further
  offers, and no unit but the project is ever changed;
* the links between the units, the ranges of ids of their subtrees, and the
  answers of the queries fit together.

The units below one are looked up with a stack of ids (`descendantsLoop`);
that the stack stands for the ids below each of its members is the invariant
of the loop (`descendantsLoop_eq`).
-/
import SourceMetrics.Proofs.Unit.Insertion

namespace SourceMetrics
namespace UnitIndex

open UnitTree

variable {α : Type}

/-! ## Units and their ids -/

namespace Represents

variable {index : UnitIndex α} {t : UnitTree α}

theorem mem_units (h : index.Represents t) {u : SourceUnit α} :
    u ∈ index.units ↔ u ∈ t.number none projectId := by
  rw [← h.units, Array.mem_toList_iff]

theorem id_eq (h : index.Represents t) {i : Nat} {u : SourceUnit α}
    (hu : index.get? i = some u) : u.id = i := by
  rw [get?_eq_getElem?, h.units] at hu
  rw [id_of_getElem?_number hu, projectId, Nat.zero_add]

theorem get?_id (h : index.Represents t) {u : SourceUnit α} (hu : u ∈ index.units) :
    index.get? u.id = some u := by
  obtain ⟨i, hi⟩ := Array.mem_iff_getElem?.mp hu
  rwa [h.id_eq hi]

theorem mem_of_get? {i : Nat} {u : SourceUnit α} (hu : index.get? i = some u) :
    u ∈ index.units :=
  Array.mem_of_getElem? hu

theorem eq_of_id_eq (h : index.Represents t) {u w : SourceUnit α} (hu : u ∈ index.units)
    (hw : w ∈ index.units) (hid : u.id = w.id) : u = w := by
  have hget := h.get?_id hu
  rw [hid, h.get?_id hw] at hget
  exact (Option.some.inj hget).symm

/-- A unit other than the project stays as it is when trees are added behind
those below the project. -/
theorem get?_of_extends {index' : UnitIndex α} {t' : UnitTree α} {more : List (UnitTree α)}
    (h : index.Represents t) (h' : index'.Represents t') (hmore : t'.children = t.children ++ more)
    {id : Nat} {u : SourceUnit α} (hid : id ≠ projectId) (hu : index.get? id = some u) :
    index'.get? id = some u := by
  obtain ⟨i, rfl⟩ : ∃ i, id = i + 1 := Nat.exists_eq_succ_of_ne_zero hid
  rw [get?_eq_getElem?, h.units, number_eq, List.getElem?_cons_succ] at hu
  rw [get?_eq_getElem?, h'.units, number_eq, List.getElem?_cons_succ, hmore, numberList_append,
    List.getElem?_append_left (List.getElem?_eq_some_iff.mp hu).1]
  exact hu

/-! ## Links -/

/-- Every unit but the project is listed by its parent, and comes behind it. -/
theorem exists_parent (h : index.Represents t) {w : SourceUnit α} (hw : w ∈ index.units)
    (hid : w.id ≠ projectId) :
    ∃ u ∈ index.units, w.parent = some u.id ∧ w.id ∈ u.children ∧ u.id < w.id := by
  rcases parent_of_mem_number none projectId t w (h.mem_units.mp hw) with rfl | ⟨u, hu, hlinks⟩
  · exact absurd rfl hid
  · exact ⟨u, h.mem_units.mpr hu, hlinks⟩

/-- A unit that is listed as a child names the one that lists it as its
parent. -/
theorem exists_child (h : index.Represents t) {u : SourceUnit α} (hu : u ∈ index.units) {c : Nat}
    (hc : c ∈ u.children) : ∃ w, index.get? c = some w ∧ w.parent = some u.id := by
  obtain ⟨-, hchild⟩ := child_of_mem_number none projectId t u (h.mem_units.mp hu)
  obtain ⟨w, hw, rfl, hparent⟩ := hchild c hc
  exact ⟨w, h.get?_id (h.mem_units.mpr hw), hparent⟩

theorem nodup_children (h : index.Represents t) {u : SourceUnit α} (hu : u ∈ index.units) :
    u.children.Nodup :=
  (child_of_mem_number none projectId t u (h.mem_units.mp hu)).1.imp fun hlt => Nat.ne_of_lt hlt

theorem eq_of_mem_children (h : index.Represents t) {u q : SourceUnit α} (hu : u ∈ index.units)
    (hq : q ∈ index.units) {c : Nat} (hcu : c ∈ u.children) (hcq : c ∈ q.children) : q = u := by
  obtain ⟨w, hw, hparent⟩ := h.exists_child hu hcu
  obtain ⟨w', hw', hparent'⟩ := h.exists_child hq hcq
  obtain rfl := Option.some.inj (hw.symm.trans hw')
  exact h.eq_of_id_eq hq hu (Option.some.inj (hparent'.symm.trans hparent))

end Represents

/-! ## Subtrees -/

/-- A unit lies in the subtree of one: it is that unit, or its parent lies in
the subtree. -/
inductive InSubtree (index : UnitIndex α) (top : Nat) : Nat → Prop
  | self : InSubtree index top top
  | step {id parent : Nat} {u : SourceUnit α} : index.get? id = some u →
      u.parent = some parent → InSubtree index top parent → InSubtree index top id

namespace Represents

variable {index : UnitIndex α} {t : UnitTree α}

/-- Every unit has a layout of its own in the arena. -/
theorem exists_holds (h : index.Represents t) {id : Nat} (hid : id < index.units.size) :
    ∃ (below : UnitTree α) (above : Option Nat), index.Holds id (below.number above id) := by
  obtain ⟨below, above, hbelow, -⟩ := exists_holds_of_mem none projectId t h.holds
    (Nat.zero_le id) (by rw [projectId, Nat.zero_add, ← h.size_eq]; exact hid)
  exact ⟨below, above, hbelow⟩

/-- The units of a layout are the units at its ids. -/
theorem mem_number_iff (h : index.Represents t) {top : Nat} {below : UnitTree α}
    {above : Option Nat} (hbelow : index.Holds top (below.number above top)) {u : SourceUnit α}
    (hu : u ∈ index.units) :
    u ∈ below.number above top ↔ top ≤ u.id ∧ u.id < top + below.unitCount := by
  constructor
  · intro hmem
    have hid : u.id ∈ (below.number above top).map (·.id) := List.mem_map.mpr ⟨u, hmem, rfl⟩
    rwa [map_id_number, List.mem_range'_1] at hid
  · rintro ⟨hle, hlt⟩
    have hlength : u.id - top < (below.number above top).length := by
      rw [length_number]
      omega
    have hget := hbelow _ _ (List.getElem?_eq_getElem hlength)
    rw [Nat.add_sub_cancel' hle, h.get?_id hu] at hget
    rw [Option.some.inj hget]
    exact List.getElem_mem hlength

/-- The subtree of a unit is the stretch of its layout. -/
theorem inSubtree_iff (h : index.Represents t) {top : Nat} {below : UnitTree α}
    {above : Option Nat} (hbelow : index.Holds top (below.number above top)) {id : Nat} :
    index.InSubtree top id ↔ top ≤ id ∧ id < top + below.unitCount := by
  constructor
  · intro hid
    induction hid with
    | self =>
        have hpos := below.unitCount_pos
        omega
    | @step id parent w hw hparent _ ih =>
        -- The parent is in the layout, so the unit it lists is in it too.
        have hmem := mem_of_get? hw
        obtain rfl := h.id_eq hw
        by_cases hroot : w.id = projectId
        · have hproject := h.holds.root.1
          rw [hroot, hproject] at hw
          obtain rfl := Option.some.inj hw
          cases hparent
        · obtain ⟨u, hu, hparent', hc, -⟩ := h.exists_parent hmem hroot
          obtain rfl : parent = u.id := Option.some.inj (hparent.symm.trans hparent')
          have hin := (h.mem_number_iff hbelow hu).mpr ih
          obtain ⟨w', hw', hid', -⟩ := (child_of_mem_number above top below u hin).2 w.id hc
          have hids : w'.id ∈ (below.number above top).map (·.id) :=
            List.mem_map.mpr ⟨w', hw', rfl⟩
          rwa [map_id_number, List.mem_range'_1, hid'] at hids
  · rintro ⟨hle, hlt⟩
    induction id using Nat.strongRecOn with
    | ind id ih =>
        have hlength : id - top < (below.number above top).length := by
          rw [length_number]
          omega
        have hget := hbelow _ _ (List.getElem?_eq_getElem hlength)
        rw [Nat.add_sub_cancel' hle] at hget
        generalize (below.number above top)[id - top] = w at hget
        obtain rfl := h.id_eq hget
        have hin := (h.mem_number_iff hbelow (mem_of_get? hget)).mpr ⟨hle, hlt⟩
        rcases parent_of_mem_number above top below w hin with rfl | ⟨u, hu, hparent, -, hbefore⟩
        · exact .self
        · have hids : u.id ∈ (below.number above top).map (·.id) := List.mem_map.mpr ⟨u, hu, rfl⟩
          rw [map_id_number, List.mem_range'_1] at hids
          exact .step hget hparent (ih u.id hbefore hids.1 hids.2)

end Represents

/-! ## The units below one -/

theorem unitsAt_append (index : UnitIndex α) (ids more : List Nat) :
    index.unitsAt (ids ++ more) = index.unitsAt ids ++ index.unitsAt more :=
  List.filterMap_append

theorem idsBelow_eq_nil {index : UnitIndex α} {id : Nat} (h : index.get? id = none) :
    index.idsBelow id = [] := by
  rw [idsBelow]
  split
  · rfl
  next u hu => rw [hu] at h; cases h

/-- A stack of ids stands for each of them and the ids below it. -/
theorem descendantsLoop_eq (index : UnitIndex α) (stack : List Nat) (found : List (SourceUnit α)) :
    index.descendantsLoop stack found =
      found.reverse ++ index.unitsAt (stack.flatMap fun id => id :: index.idsBelow id) := by
  fun_induction descendantsLoop index stack found with
  | case1 found => exact (List.append_nil _).symm
  | case2 found id rest hnone ih =>
      rw [ih, List.flatMap_cons, unitsAt_append, idsBelow_eq_nil hnone]
      simp only [unitsAt, List.filterMap_cons, hnone, List.filterMap_nil, List.nil_append]
  | case3 found id rest u hu ih =>
      rw [ih, List.flatMap_append, List.flatMap_cons, ← idsBelow_eq hu, List.reverse_cons,
        unitsAt_append, unitsAt_append]
      simp only [unitsAt, List.filterMap_cons, hu, List.append_assoc, List.cons_append,
        List.nil_append]

theorem descendants_eq (index : UnitIndex α) (id : Nat) :
    index.descendants id = index.unitsAt (index.idsBelow id) := by
  unfold descendants
  cases hu : index.get? id with
  | none =>
      rw [idsBelow_eq_nil hu]
      rfl
  | some u =>
      rw [idsBelow_eq hu]
      exact descendantsLoop_eq index _ []

theorem map_some_unitsAt {index : UnitIndex α} {ids : List Nat}
    (h : ∀ id ∈ ids, ∃ u, index.get? id = some u) :
    (index.unitsAt ids).map some = ids.map index.get? := by
  induction ids with
  | nil => rfl
  | cons id ids ih =>
      obtain ⟨u, hu⟩ := h id List.mem_cons_self
      have hrest := ih fun id hid => h id (List.mem_cons_of_mem _ hid)
      rw [unitsAt, List.filterMap_cons, List.map_cons, hu, List.map_cons, ← hrest]
      rfl

/-- The units below one are those at the other ids of its stretch, in order. -/
theorem descendants_of_holds {index : UnitIndex α} {top : Nat} {below : UnitTree α}
    {above : Option Nat} (hbelow : index.Holds top (below.number above top)) :
    (index.descendants top).map some =
      (List.range' (top + 1) (below.unitCount - 1)).map index.get? := by
  rw [descendants_eq, idsBelow_of_holds above top below hbelow]
  refine map_some_unitsAt fun id hid => ?_
  have hbounds := List.mem_range'_1.mp hid
  have hlength : id - top < (below.number above top).length := by
    rw [length_number]
    omega
  have hget := hbelow _ _ (List.getElem?_eq_getElem hlength)
  rw [Nat.add_sub_cancel' (by omega)] at hget
  exact ⟨_, hget⟩

/-! ## The units right below one -/

theorem children_eq {index : UnitIndex α} {id : Nat} {u : SourceUnit α} (h : index.get? id = some u) :
    index.children id = index.unitsAt u.children := by
  rw [children, h]

/-- Where trees are laid out side by side, what is read off their roots is
what is read off the trees. -/
theorem map_unitsAt {β : Type} {f : SourceUnit α → β} {g : UnitTree α → β}
    (hroot : ∀ parent next t, f (rootUnit parent next t) = g t) {index : UnitIndex α}
    {parent next : Nat} {ts : List (UnitTree α)} (h : index.Holds next (numberList parent next ts)) :
    (index.unitsAt (childIds next ts)).map f = ts.map g := by
  induction ts generalizing next with
  | nil => rfl
  | cons t ts ih =>
      obtain ⟨hfirst, hrest⟩ := h.cons
      have hmapped := ih hrest
      rw [unitsAt] at hmapped
      rw [childIds, unitsAt, List.filterMap_cons, hfirst.root.1, List.map_cons, List.map_cons,
        hmapped, hroot]

/-- Where trees are laid out side by side, their roots have their keys. -/
theorem map_key_unitsAt {index : UnitIndex α} {parent next : Nat} {ts : List (UnitTree α)}
    (h : index.Holds next (numberList parent next ts)) :
    (index.unitsAt (childIds next ts)).map (·.key) = ts.map (·.key) :=
  map_unitsAt (fun _ _ _ => rfl) h

namespace Represents

variable {index : UnitIndex α} {t : UnitTree α}

/-- The units at ids have these ids. -/
theorem map_id_unitsAt (h : index.Represents t) {ids : List Nat}
    (hids : ∀ id ∈ ids, ∃ u, index.get? id = some u) :
    (index.unitsAt ids).map (·.id) = ids := by
  induction ids with
  | nil => rfl
  | cons id ids ih =>
      obtain ⟨u, hu⟩ := hids id List.mem_cons_self
      have hrest := ih fun id hid => hids id (List.mem_cons_of_mem _ hid)
      rw [unitsAt] at hrest
      rw [unitsAt, List.filterMap_cons, hu, List.map_cons, hrest, h.id_eq hu]

/-- The units right below one are those it lists. -/
theorem map_id_children (h : index.Represents t) {u : SourceUnit α} (hu : u ∈ index.units) :
    (index.children u.id).map (·.id) = u.children := by
  rw [children_eq (h.get?_id hu)]
  refine h.map_id_unitsAt fun c hc => ?_
  obtain ⟨w, hw, -⟩ := h.exists_child hu hc
  exact ⟨w, hw⟩

/-- What is read off the units right below the project is what is read off
its files. -/
theorem map_children_project {β : Type} {f : SourceUnit α → β} {g : UnitTree α → β}
    (hroot : ∀ parent next t, f (rootUnit parent next t) = g t) (h : index.Represents t) :
    (index.children projectId).map f = t.children.map g := by
  obtain ⟨hproject, hbelow⟩ := h.holds.root
  rw [children_eq hproject]
  exact map_unitsAt hroot hbelow

/-- The keys right below the project are those of its files. -/
theorem map_key_children_project (h : index.Represents t) :
    (index.children projectId).map (·.key) = t.children.map (·.key) :=
  h.map_children_project fun _ _ _ => rfl

/-- A file of the key is there. -/
theorem holdsFile_iff (h : index.Represents t) (key : String) :
    index.holdsFile key = true ↔ key ∈ t.children.map (·.key) := by
  rw [← h.map_key_children_project, holdsFile, List.any_eq_true, List.mem_map]
  simp only [beq_iff_eq]

end Represents

/-! ## The tables -/

namespace Represents

variable {index : UnitIndex α} {t : UnitTree α}

theorem unitsAt_map_id (h : index.Represents t) {us : List (SourceUnit α)}
    (hus : ∀ u ∈ us, u ∈ index.units) : index.unitsAt (us.map (·.id)) = us := by
  induction us with
  | nil => rfl
  | cons u us ih =>
      have hrest := ih fun w hw => hus w (List.mem_cons_of_mem _ hw)
      rw [unitsAt] at hrest
      rw [unitsAt, List.map_cons, List.filterMap_cons, h.get?_id (hus u List.mem_cons_self), hrest]

theorem query_eq (h : index.Represents t) (kind : UnitKind) :
    index.query kind = index.units.toList.filter (fun u => u.kind = kind) := by
  rw [query, h.tabled.byKind]
  exact h.unitsAt_map_id fun u hu => Array.mem_toList_iff.mp (List.mem_filter.mp hu).1

theorem findByKey_eq (h : index.Represents t) (kind : UnitKind) (key : String) :
    index.findByKey kind key =
      index.units.toList.find? (fun u => u.kind = kind && u.key == key) := by
  rw [findByKey, h.tabled.byKey, List.head?_map, List.head?_filter]
  cases hfind : index.units.toList.find? (fun u => u.kind = kind && u.key == key) with
  | none => rfl
  | some u => exact h.get?_id (Array.mem_toList_iff.mp (List.mem_of_find?_eq_some hfind))

end Represents

/-! ## Any offers -/

section
variable [Amount α] (key : String) (registry : MetricRegistry α)

/-- Every accepted tree is given back, under the id it was accepted with, in
every later state; no unit but the project is changed later on; and below the
project there are the accepted trees, in the order they came. -/
theorem offerAll_keeps_trees :
    (∀ (before after : List (UnitTree α)) (tree : UnitTree α) (id : Nat) (next : UnitIndex α),
      ((new key registry).offerAll before).insert tree = .ok (id, next) →
      ((new key registry).offerAll (before ++ tree :: after)).toTree id = some tree) ∧
    (∀ (before after : List (UnitTree α)) (id : Nat) (u : SourceUnit α), id ≠ projectId →
      ((new key registry).offerAll before).get? id = some u →
      ((new key registry).offerAll (before ++ after)).get? id = some u) ∧
    (∀ offers : List (UnitTree α),
      (((new key registry).offerAll offers).toTree projectId).map (·.children) =
        some ((new key registry).accepted offers)) := by
  refine ⟨?_, ?_, ?_⟩
  · intro before after tree id next hinsert
    obtain ⟨t, ht, -⟩ := represents_offerAll key registry before
    obtain ⟨hid, t₁, ht₁, hchildren₁⟩ := ht.insert hinsert
    obtain ⟨t', ht', hchildren⟩ := ht₁.offerAll after
    have hoffer : ((new key registry).offerAll before).offer tree = next := by
      simp only [offer, hinsert]
    rw [hchildren₁, List.append_assoc, List.singleton_append] at hchildren
    rw [offerAll_append, offerAll, List.foldl_cons, hoffer, hid, unitCount_eq]
    exact toTree_of_holds _ _ tree (ht'.holds_child hchildren)
  · intro before after id u hid hu
    obtain ⟨t, ht, -⟩ := represents_offerAll key registry before
    obtain ⟨t', ht', hchildren⟩ := ht.offerAll after
    rw [offerAll_append]
    exact ht.get?_of_extends ht' hchildren hid hu
  · intro offers
    obtain ⟨t, ht, hchildren⟩ := represents_offerAll key registry offers
    rw [toTree_of_holds none projectId t ht.holds, Option.map_some, hchildren]

/-- A file with a function that has a function inside. -/
def nestedFile : UnitTree Nat :=
  let inner : UnitTree Nat := ⟨.function, "g:2", 2, .empty, .empty, [], []⟩
  let outer : UnitTree Nat := ⟨.function, "f:1", 1, .empty, .empty, [], [inner]⟩
  ⟨.file, "a", 1, .empty, .empty, [2], [outer, inner]⟩

/-- A file without functions. -/
def plainFile : UnitTree Nat := ⟨.file, "b", 1, .empty, .empty, [], []⟩

theorem offerAll_keeps_trees_refused :
    (∃ id next, ((new "p" ⟨[]⟩).offerAll []).insert nestedFile = .ok (id, next) ∧
      ((new "p" ⟨[]⟩).offerAll ([] ++ nestedFile :: [plainFile, nestedFile])).toTree id =
        some nestedFile) ∧
    (∃ u, ((new "p" ⟨[]⟩).offerAll [nestedFile]).get? 3 = some u ∧
      ((new "p" ⟨[]⟩).offerAll ([nestedFile] ++ [plainFile, nestedFile])).get? 3 = some u) ∧
    (new "p" ⟨[]⟩).accepted [nestedFile, plainFile, nestedFile] = [nestedFile, plainFile] := by
  obtain ⟨htrees, hunits, -⟩ := offerAll_keeps_trees "p" (⟨[]⟩ : MetricRegistry Nat)
  refine ⟨⟨_, _, rfl, ?_⟩, ⟨_, rfl, ?_⟩, rfl⟩
  · exact htrees [] [plainFile, nestedFile] nestedFile _ _ rfl
  · exact hunits [nestedFile] [plainFile, nestedFile] 3 _ (by decide) rfl

/-- After any offers the index is in order.  A unit stands at its id; every
unit but the project is listed once by the unit it names as its parent and by
no other, and only such units are listed; a subtree is a range of ids that
starts at its root, and the units below the root are those at the other ids
of the range, in order; the tables answer like a search through all units;
and there are as many units as the accepted trees have, besides the project. -/
theorem offerAll_in_order (offers : List (UnitTree α)) :
    let index := (new key registry).offerAll offers
    (∀ i u, index.get? i = some u → u.id = i) ∧
    (∀ w ∈ index.units, w.id ≠ projectId →
      ∃ u ∈ index.units, w.parent = some u.id ∧ u.children.count w.id = 1 ∧
        ∀ q ∈ index.units, w.id ∈ q.children → q = u) ∧
    (∀ u ∈ index.units, ∀ c ∈ u.children,
      ∃ w, index.get? c = some w ∧ w.parent = some u.id) ∧
    (∀ top < index.size, ∃ t, index.toTree top = some t ∧
      (∀ id, index.InSubtree top id ↔ top ≤ id ∧ id < top + t.unitCount) ∧
      (index.descendants top).map some =
        (List.range' (top + 1) (t.unitCount - 1)).map index.get?) ∧
    (∀ kind, index.query kind = index.units.toList.filter (fun u => u.kind = kind)) ∧
    (∀ kind key, index.findByKey kind key =
      index.units.toList.find? (fun u => u.kind = kind && u.key == key)) ∧
    index.size = 1 + (((new key registry).accepted offers).map unitCount).sum := by
  obtain ⟨t, ht, hchildren⟩ := represents_offerAll key registry offers
  refine ⟨fun i u hu => ht.id_eq hu, ?_, fun u hu c hc => ht.exists_child hu hc, ?_, ht.query_eq,
    ht.findByKey_eq, ?_⟩
  · intro w hw hid
    obtain ⟨u, hu, hparent, hc, -⟩ := ht.exists_parent hw hid
    refine ⟨u, hu, hparent, (ht.nodup_children hu).count.trans (if_pos hc), ?_⟩
    intro q hq hcq
    exact ht.eq_of_mem_children hu hq hc hcq
  · intro top htop
    obtain ⟨below, above, hbelow⟩ := ht.exists_holds htop
    exact ⟨below, toTree_of_holds above top below hbelow, fun id => ht.inSubtree_iff hbelow,
      descendants_of_holds hbelow⟩
  · rw [size, ht.size_eq, unitCount_eq, hchildren, unitCountList_eq_sum]

theorem offerAll_in_order_refused :
    let index := (new "p" ⟨[]⟩).offerAll [nestedFile, plainFile, nestedFile]
    (∃ u, index.get? 3 = some u ∧ u.id = 3) ∧ index.size = 6 := by
  obtain ⟨hid, -, -, -, -, -, hsize⟩ :=
    offerAll_in_order "p" (⟨[]⟩ : MetricRegistry Nat) [nestedFile, plainFile, nestedFile]
  exact ⟨⟨_, rfl, hid 3 _ rfl⟩, hsize⟩

end

end UnitIndex
end SourceMetrics
