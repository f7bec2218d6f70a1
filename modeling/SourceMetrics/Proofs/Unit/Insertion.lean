/-
# What an index holds after any offers

Trees are offered to an index one after the other; a tree of a key that is
taken is refused.  The index is kept as an arena with links by id, and
beside it the tables of kinds and keys.  This module says that the arena is,
after any offers, the layout of one tree: the project with the accepted
trees below it.

    offer t₁, t₂, …   ↦   project ─┬─ first accepted tree
                                   ├─ second accepted tree
                                   └─ …

* `attach_units`: to take a tree in unit by unit, each added to the children
  of its parent once it is complete, appends the layout of the tree.
* `Represents`: the arena is the layout of a tree and the tables list its
  units.  An insertion keeps this (`Represents.insert`), and so do any
  offers, accepted or not (`represents_offerAll`).
-/
import SourceMetrics.Proofs.Unit.Numbering

namespace SourceMetrics
namespace UnitIndex

open UnitTree

variable {α : Type}

/-! ## Taking a tree in -/

/-- The unit with more children, after those it has. -/
def withChildren (ids : List Nat) (u : SourceUnit α) : SourceUnit α :=
  { u with children := u.children ++ ids }

theorem modify_append_of_lt {us vs : List (SourceUnit α)} {i : Nat}
    (f : SourceUnit α → SourceUnit α) (h : i < us.length) :
    (us ++ vs).modify i f = us.modify i f ++ vs := by
  induction us generalizing i with
  | nil => cases h
  | cons u us ih =>
      cases i with
      | zero => rfl
      | succ i =>
          simp only [List.cons_append, List.modify_succ_cons, ih (Nat.lt_of_succ_lt_succ h)]

theorem modify_append_length {us : List (SourceUnit α)} {u : SourceUnit α}
    (f : SourceUnit α → SourceUnit α) :
    (us ++ [u]).modify us.length f = us ++ [f u] := by
  induction us with
  | nil => rfl
  | cons v us ih => simp only [List.cons_append, List.length_cons, List.modify_succ_cons, ih]

theorem modify_withChildren (us : List (SourceUnit α)) (i : Nat) (ids more : List Nat) :
    (us.modify i (withChildren ids)).modify i (withChildren more) =
      us.modify i (withChildren (ids ++ more)) := by
  rw [List.modify_modify_eq]
  congr 1
  funext u
  simp only [Function.comp, withChildren, List.append_assoc]

theorem modify_withChildren_nil (us : List (SourceUnit α)) (i : Nat) :
    us.modify i (withChildren []) = us := by
  have hid : (withChildren [] : SourceUnit α → SourceUnit α) = id := by
    funext u
    simp only [withChildren, List.append_nil, id]
  rw [hid, List.modify_id]

theorem toList_register (index : UnitIndex α) (u : SourceUnit α) :
    (index.register u).units.toList = index.units.toList ++ [u] :=
  Array.toList_push

theorem toList_addChild (index : UnitIndex α) (parent id : Nat) :
    (index.addChild parent id).units.toList =
      index.units.toList.modify parent (withChildren [id]) :=
  Array.toList_modify

mutual
/-- A tree that is taken in is laid out at the end of the arena, and nothing
before it is touched. -/
theorem attach_units (index : UnitIndex α) (parent : Nat) :
    ∀ t : UnitTree α, (index.attach parent t).1 = index.units.size ∧
      (index.attach parent t).2.units.toList =
        index.units.toList ++ t.number (some parent) index.units.size
  | ⟨kind, key, line, own, measures, lines, children⟩ => by
      refine ⟨rfl, ?_⟩
      let u : SourceUnit α :=
        ⟨index.units.size, kind, key, line, own, measures, lines, some parent, []⟩
      have hsize : (index.register u).units.size = index.units.size + 1 := Array.size_push _
      have hlt : index.units.size < (index.register u).units.size := by
        rw [hsize]
        exact Nat.lt_succ_self _
      have hbelow := attachList_units (index.register u) index.units.size children hlt
      have hlength : index.units.size = index.units.toList.length := rfl
      show (attachList (index.register u) index.units.size children).units.toList = _
      rw [hbelow, toList_register, hsize, hlength, modify_append_length, number,
        List.append_assoc]
      rfl
/-- Trees that are taken in below a unit are laid out at the end of the
arena, and the unit gets their roots as children. -/
theorem attachList_units (index : UnitIndex α) (parent : Nat) :
    ∀ ts : List (UnitTree α), parent < index.units.size →
      (index.attachList parent ts).units.toList =
        index.units.toList.modify parent (withChildren (childIds index.units.size ts)) ++
          numberList parent index.units.size ts
  | [], _ => by
      rw [childIds, modify_withChildren_nil, numberList, List.append_nil]
      rfl
  | t :: ts, hlt => by
      -- The first tree goes to the end, and only then is it entered among the
      -- children of the parent, which lies before it.
      obtain ⟨hid, hunits⟩ := attach_units index parent t
      let grown := (index.attach parent t).2.addChild parent (index.attach parent t).1
      have hgrown : grown.units.toList =
          index.units.toList.modify parent (withChildren [index.units.size]) ++
            t.number (some parent) index.units.size := by
        rw [toList_addChild, hid, hunits, modify_append_of_lt _ hlt]
      have hsize : grown.units.size = index.units.size + t.unitCount := by
        rw [← Array.length_toList, hgrown, List.length_append, List.length_modify,
          length_number]
        rfl
      have hrest := attachList_units grown parent ts (by omega)
      show (attachList grown parent ts).units.toList = _
      rw [hrest, hsize, hgrown, modify_append_of_lt _ (by rwa [List.length_modify]),
        modify_withChildren, childIds, numberList, List.append_assoc]
      rfl
end

/-! ## The tables -/

/-- The tables list the ids of the units of a kind, and of a kind and key, in
the order of the arena. -/
structure Tabled (index : UnitIndex α) : Prop where
  byKind : ∀ kind, (index.byKind.lookup kind).getD [] =
    (index.units.toList.filter (fun u => u.kind = kind)).map (·.id)
  byKey : ∀ kind key, index.byKey.getD (kind, key) [] =
    (index.units.toList.filter (fun u => u.kind = kind && u.key == key)).map (·.id)

theorem getD_lookup_cons (k kind : UnitKind) (ids : List Nat) (rest : List (UnitKind × List Nat)) :
    (((k, ids) :: rest).lookup kind).getD [] =
      if k = kind then ids else (rest.lookup kind).getD [] := by
  rw [List.lookup_cons]
  by_cases h : k = kind
  · rw [if_pos h, beq_iff_eq.mpr h.symm]
    rfl
  · rw [if_neg h, beq_eq_false_iff_ne.mpr fun e => h e.symm]

theorem getD_lookup_addToKind (id : Nat) (kind k : UnitKind) (table : List (UnitKind × List Nat)) :
    ((addToKind id kind table).lookup k).getD [] =
      (table.lookup k).getD [] ++ if kind = k then [id] else [] := by
  induction table with
  | nil =>
      rw [addToKind, getD_lookup_cons]
      rfl
  | cons entry rest ih =>
      obtain ⟨k', ids⟩ := entry
      rw [addToKind, getD_lookup_cons]
      by_cases hkind : k' = kind
      · subst hkind
        rw [if_pos rfl, getD_lookup_cons]
        split
        · rfl
        · rw [List.append_nil]
      · rw [if_neg hkind, getD_lookup_cons, ih]
        by_cases hk : k' = k
        · rw [if_pos hk, if_pos hk, if_neg fun e => hkind (hk.trans e.symm), List.append_nil]
        · rw [if_neg hk, if_neg hk]

theorem Tabled.register {index : UnitIndex α} (h : index.Tabled) (u : SourceUnit α) :
    (index.register u).Tabled := by
  refine ⟨fun kind => ?_, fun kind key => ?_⟩
  · rw [toList_register, List.filter_append, List.map_append, ← h.byKind]
    show ((addToKind u.id u.kind index.byKind).lookup kind).getD [] = _
    rw [getD_lookup_addToKind]
    by_cases hk : u.kind = kind <;> simp [hk]
  · rw [toList_register, List.filter_append, List.map_append, ← h.byKey]
    show (index.byKey.insert (u.kind, u.key) (index.byKey.getD (u.kind, u.key) [] ++ [u.id])).getD
      (kind, key) [] = _
    rw [Std.HashMap.getD_insert]
    by_cases hk : u.kind = kind
    · by_cases hkey : u.key = key
      · simp [hk, hkey]
      · simp [hk, hkey]
    · simp [hk]

/-- What is changed of one unit does not matter to the tables, as long as
its id, kind and key stay. -/
theorem ids_filter_modify {f : SourceUnit α → SourceUnit α} {p : SourceUnit α → Bool}
    (hp : ∀ u, p (f u) = p u) (hid : ∀ u, (f u).id = u.id) (us : List (SourceUnit α)) (i : Nat) :
    ((us.modify i f).filter p).map (·.id) = (us.filter p).map (·.id) := by
  induction us generalizing i with
  | nil => rw [List.modify_nil]
  | cons u us ih =>
      cases i with
      | zero =>
          rw [List.modify_zero_cons, List.filter_cons, List.filter_cons, hp]
          split
          · rw [List.map_cons, List.map_cons, hid]
          · rfl
      | succ i =>
          rw [List.modify_succ_cons, List.filter_cons, List.filter_cons]
          split
          · rw [List.map_cons, List.map_cons, ih]
          · exact ih i

theorem Tabled.modify {index : UnitIndex α} (h : index.Tabled) (i : Nat)
    {f : SourceUnit α → SourceUnit α} (hid : ∀ u, (f u).id = u.id)
    (hkind : ∀ u, (f u).kind = u.kind) (hkey : ∀ u, (f u).key = u.key) :
    Tabled { index with units := index.units.modify i f } := by
  refine ⟨fun kind => ?_, fun kind key => ?_⟩
  · show (index.byKind.lookup kind).getD [] = _
    rw [h.byKind, Array.toList_modify,
      ids_filter_modify (fun u => by simp only [hkind]) hid]
  · show index.byKey.getD (kind, key) [] = _
    rw [h.byKey, Array.toList_modify,
      ids_filter_modify (fun u => by simp only [hkind, hkey]) hid]

mutual
theorem Tabled.attach {index : UnitIndex α} (h : index.Tabled) (parent : Nat) :
    ∀ t : UnitTree α, (index.attach parent t).2.Tabled
  | ⟨_, _, _, _, _, _, children⟩ => Tabled.attachList (h.register _) index.units.size children
theorem Tabled.attachList {index : UnitIndex α} (h : index.Tabled) (parent : Nat) :
    ∀ ts : List (UnitTree α), (index.attachList parent ts).Tabled
  | [] => h
  | t :: ts => by
      have hgrown : ((index.attach parent t).2.addChild parent (index.attach parent t).1).Tabled :=
        (h.attach parent t).modify parent (fun _ => rfl) (fun _ => rfl) (fun _ => rfl)
      exact hgrown.attachList parent ts
end

/-! ## The tree an index represents -/

/-- The arena is the layout of a tree, and the tables list its units. -/
structure Represents (index : UnitIndex α) (t : UnitTree α) : Prop where
  units : index.units.toList = t.number none projectId
  tabled : index.Tabled

theorem get?_eq_getElem? (index : UnitIndex α) (id : Nat) :
    index.get? id = index.units.toList[id]? :=
  Array.getElem?_toList.symm

namespace Represents

variable {index : UnitIndex α} {t : UnitTree α}

theorem holds (h : index.Represents t) : index.Holds projectId (t.number none projectId) := by
  intro i u hu
  rw [get?_eq_getElem?, h.units, projectId, Nat.zero_add]
  exact hu

theorem size_eq (h : index.Represents t) : index.units.size = t.unitCount := by
  rw [← Array.length_toList, h.units, length_number]

/-- A tree right below the project is laid out behind those before it. -/
theorem holds_child (h : index.Represents t) {before after : List (UnitTree α)}
    {child : UnitTree α} (hchildren : t.children = before ++ child :: after) :
    index.Holds (1 + unitCountList before)
      (child.number (some projectId) (1 + unitCountList before)) := by
  obtain ⟨-, hbelow⟩ := h.holds.root
  rw [hchildren, numberList_append] at hbelow
  have hright := hbelow.right
  rw [length_numberList] at hright
  exact hright.cons.1

end Represents

/-- A fresh index represents a project without files. -/
theorem represents_new (key : String) (registry : MetricRegistry α) :
    (new key registry).Represents ⟨.project, key, 0, .empty, .empty, [], []⟩ := by
  refine ⟨rfl, Tabled.register ⟨fun _ => rfl, fun kind key => ?_⟩ _⟩
  exact Std.HashMap.getD_empty

section
variable [Amount α]

/-- An accepted tree gets the next free id, and the index represents the
project with that tree behind the others. -/
theorem Represents.insert {index index' : UnitIndex α} {t tree : UnitTree α} {id : Nat}
    (h : index.Represents t) (hinsert : index.insert tree = .ok (id, index')) :
    id = t.unitCount ∧
      ∃ t', index'.Represents t' ∧ t'.children = t.children ++ [tree] := by
  unfold UnitIndex.insert at hinsert
  split at hinsert
  · cases hinsert
  · let start : UnitIndex α :=
      { index with gathered := index.registry.mergeChild index.gathered tree.measures }
    have hstart : start.Tabled := ⟨h.tabled.byKind, h.tabled.byKey⟩
    have hunits : start.units.toList = t.number none projectId := h.units
    have hsize : start.units.size = t.unitCount := h.size_eq
    have htabled := hstart.attach projectId tree
    obtain ⟨hid, hgrown⟩ := attach_units start projectId tree
    have hanswer : Except.ok ((start.attach projectId tree).1,
        (start.attach projectId tree).2.addToProject (start.attach projectId tree).1) =
          (.ok (id, index') : Except ScanError (Nat × UnitIndex α)) := hinsert
    generalize start.attach projectId tree = answer at htabled hid hgrown hanswer
    obtain ⟨id', grown⟩ := answer
    obtain ⟨rfl, rfl⟩ := Prod.mk.inj (Except.ok.inj hanswer)
    obtain rfl : id' = t.unitCount := hid.trans hsize
    refine ⟨rfl, ⟨t.kind, t.key, t.startLine, t.own, grown.registry.finalize t.own grown.gathered,
      t.noSonarLines, t.children ++ [tree]⟩, ⟨?_, ?_⟩, rfl⟩
    · show (grown.units.modify projectId _).toList = _
      rw [Array.toList_modify, hgrown, hunits, hsize, number, numberList_append, childIds_append,
        number_eq, unitCount_eq, List.cons_append]
      simp only [projectId, List.modify_zero_cons, rootUnit, numberList, childIds,
        List.append_nil, Nat.zero_add]
    · exact htabled.modify projectId (fun _ => rfl) (fun _ => rfl) (fun _ => rfl)

/-- An accepted tree is given back under its id. -/
theorem Represents.toTree_insert {index index' : UnitIndex α} {t tree : UnitTree α} {id : Nat}
    (h : index.Represents t) (hinsert : index.insert tree = .ok (id, index')) :
    index'.toTree id = some tree := by
  obtain ⟨hid, t', ht', hchildren⟩ := h.insert hinsert
  rw [hid, unitCount_eq]
  exact toTree_of_holds _ _ tree (ht'.holds_child hchildren)

/-- A tree is refused where its key is taken, and else accepted. -/
theorem insert_cases (index : UnitIndex α) (tree : UnitTree α) :
    (index.holdsFile tree.key = true ∧
      index.insert tree = .error (.invariant (.alreadyIndexed tree.kind tree.key))) ∨
    (index.holdsFile tree.key = false ∧ ∃ id index', index.insert tree = .ok (id, index')) := by
  unfold UnitIndex.insert
  cases htaken : index.holdsFile tree.key with
  | true => exact .inl ⟨rfl, rfl⟩
  | false => exact .inr ⟨rfl, _, _, rfl⟩

/-! ## Offers -/

/-- Offers a tree to the index; a refused tree leaves it as it is. -/
def offer (index : UnitIndex α) (tree : UnitTree α) : UnitIndex α :=
  match index.insert tree with
  | .ok (_, index) => index
  | .error _ => index

/-- Offers trees to the index one after the other. -/
def offerAll (index : UnitIndex α) (trees : List (UnitTree α)) : UnitIndex α :=
  trees.foldl offer index

/-- Of trees that are offered one after the other, those that are accepted. -/
def accepted (index : UnitIndex α) : List (UnitTree α) → List (UnitTree α)
  | [] => []
  | tree :: rest =>
    match index.insert tree with
    | .ok (_, index) => tree :: accepted index rest
    | .error _ => accepted index rest

theorem offerAll_append (index : UnitIndex α) (before after : List (UnitTree α)) :
    index.offerAll (before ++ after) = (index.offerAll before).offerAll after :=
  List.foldl_append

/-- After any offers the accepted trees are there behind those before. -/
theorem Represents.offerAll {index : UnitIndex α} {t : UnitTree α} (h : index.Represents t)
    (offers : List (UnitTree α)) :
    ∃ t', (index.offerAll offers).Represents t' ∧
      t'.children = t.children ++ index.accepted offers := by
  induction offers generalizing index t with
  | nil => exact ⟨t, h, (List.append_nil _).symm⟩
  | cons tree rest ih =>
      cases hinsert : index.insert tree with
      | error err =>
          have hoffer : index.offer tree = index := by simp only [offer, hinsert]
          obtain ⟨t', ht', hchildren⟩ := ih h
          refine ⟨t', ?_, ?_⟩
          · rw [UnitIndex.offerAll, List.foldl_cons, hoffer]
            exact ht'
          · simp only [accepted, hinsert, hchildren]
      | ok answer =>
          obtain ⟨id, index'⟩ := answer
          have hoffer : index.offer tree = index' := by simp only [offer, hinsert]
          obtain ⟨-, t₁, ht₁, hchildren₁⟩ := h.insert hinsert
          obtain ⟨t', ht', hchildren⟩ := ih ht₁
          refine ⟨t', ?_, ?_⟩
          · rw [UnitIndex.offerAll, List.foldl_cons, hoffer]
            exact ht'
          · simp only [accepted, hinsert, hchildren, hchildren₁, List.append_assoc,
              List.singleton_append]

/-- After any offers a fresh index represents the project with the accepted
trees below it. -/
theorem represents_offerAll (key : String) (registry : MetricRegistry α)
    (offers : List (UnitTree α)) :
    ∃ t, ((new key registry).offerAll offers).Represents t ∧
      t.children = (new key registry).accepted offers := by
  obtain ⟨t, ht, hchildren⟩ := (represents_new key registry).offerAll offers
  exact ⟨t, ht, hchildren⟩

end

end UnitIndex
end SourceMetrics
