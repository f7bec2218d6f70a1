/-
# Units side by side have different keys

Two mechanisms keep the keys below one unit apart.  A pass over a file gives
a unit a key that no finished unit below the same parent has
(`OpenUnit.freeKey`), and the index refuses a file whose key is taken.

    wanted     f      f       f          f
    given      f      f:1     f:1#2      f:1#3

The key is free when it is given (`OpenUnit.freeKey_not_mem`).  It stays unlike
all others, since a unit that comes later is held against it in turn, whether
its wanted key or an invented one.  So the units around a node keep their keys
apart when the units of the node are added (`Node.keysApart_mark`), and after
any history of a scanner all units of the index have
(`Scanner.after_keys_apart`).
-/
import Mathlib.Data.List.Nodup
import SourceMetrics.Proofs.Scan.FreeKeys
import SourceMetrics.Proofs.Scan.History
import SourceMetrics.Proofs.Unit.Queries

namespace SourceMetrics

/-! ## Shapes whose keys are apart -/

namespace UnitShape

/-- Right below every unit of the shape no two units have the same key. -/
inductive KeysApart : UnitShape → Prop
  | intro {u : UnitShape} : u.keysBelow.Nodup → (∀ c ∈ u.children, KeysApart c) → KeysApart u

theorem KeysApart.nodup {u : UnitShape} : u.KeysApart → u.keysBelow.Nodup
  | .intro hnodup _ => hnodup

theorem KeysApart.child {u c : UnitShape} (hc : c ∈ u.children) : u.KeysApart → c.KeysApart
  | .intro _ hbelow => hbelow c hc

/-- What counts is what lies below. -/
theorem KeysApart.of_children_eq {u v : UnitShape} (h : u.KeysApart)
    (hchildren : v.children = u.children) : v.KeysApart := by
  refine .intro ?_ ?_
  · rw [keysBelow, hchildren]
    exact h.nodup
  · intro c hc
    rw [hchildren] at hc
    exact h.child hc

theorem keysApart_of_leaf (unit : UnitSpec) : KeysApart ⟨unit, []⟩ :=
  .intro List.nodup_nil fun _ hc => absurd hc List.not_mem_nil

theorem keysBelow_add (u : UnitShape) (more : List UnitShape) :
    (u.add more).keysBelow = u.keysBelow ++ more.map (·.unit.key) :=
  List.map_append

/-- One more unit is added under a new key. -/
theorem KeysApart.add_one {u c : UnitShape} (hu : u.KeysApart) (hc : c.KeysApart)
    (hkey : c.unit.key ∉ u.keysBelow) : (u.add [c]).KeysApart := by
  refine .intro ?_ ?_
  · rw [keysBelow_add, List.map_singleton, ← List.concat_eq_append]
    exact hu.nodup.concat hkey
  · intro d hd
    rcases List.mem_append.mp hd with hd | hd
    · exact hu.child hd
    · obtain rfl := List.mem_singleton.mp hd
      exact hc

end UnitShape

/-! ## The units of a file -/

/-- The unit that is opened for a node has a key of its own. -/
theorem key_of_claimedUnit {extractors : List UnitExtractor} {above : List Node}
    {around : UnitShape} {n : Node} {unit : UnitSpec}
    (h : claimedUnit extractors above around n = some unit) : unit.key ∉ around.keysBelow := by
  obtain ⟨spec, -, rfl⟩ := Option.map_eq_some_iff.mp h
  exact OpenUnit.freeKey_not_mem around.keysBelow spec.key n.span.startCol

namespace Node

variable {extractors : List UnitExtractor}

mutual
/-- A node adds its units to the one around it under keys of their own. -/
theorem keysApart_mark (above : List Node) (around : UnitShape) (h : around.KeysApart) :
    ∀ n : Node, (around.add (n.mark extractors above around).contract).KeysApart
  | ⟨kind, span, field, token, children⟩ => by
      let n : Node := ⟨kind, span, field, token, children⟩
      rw [mark_eq above around n]
      cases hunit : claimedUnit extractors above around n with
      | none => exact keysApart_markList (n :: above) around h children
      | some unit =>
          -- The units below the node go under the new unit, which then joins
          -- those around it.
          have hbelow := keysApart_markList (n :: above) ⟨unit, []⟩
            (UnitShape.keysApart_of_leaf unit) children
          exact h.add_one hbelow (key_of_claimedUnit hunit)
/-- Nodes side by side add their units one after the other. -/
theorem keysApart_markList (above : List Node) (around : UnitShape) (h : around.KeysApart) :
    ∀ ns : List Node,
      (around.add (Marked.contractList (markList extractors above around ns))).KeysApart
  | [] => by
      rw [markList, Marked.contractList, UnitShape.add_nil]
      exact h
  | n :: ns => by
      have hfirst := keysApart_mark above around h n
      rw [markList, Marked.contractList, ← UnitShape.add_add]
      exact keysApart_markList above _ hfirst ns
end

end Node

namespace UnitTree

variable {α : Type}

theorem keysBelow_shape (t : UnitTree α) : t.shape.keysBelow = t.children.map (·.key) := by
  cases t
  exact map_key_shapeList _

theorem children_shape (t : UnitTree α) : t.shape.children = t.children.map shape := by
  cases t
  exact shapeList_eq_map _

mutual
/-- A unit of a tree whose keys are apart has its keys apart. -/
theorem keysApart_of_mem_preorder :
    ∀ t : UnitTree α, t.shape.KeysApart → ∀ u ∈ t.preorder, u.shape.KeysApart
  | ⟨kind, key, line, own, measures, lines, children⟩, h, u, hu => by
      rcases List.mem_cons.mp hu with rfl | hu
      · exact h
      · refine keysApart_of_mem_preorderList children (fun t ht => ?_) u hu
        refine h.child ?_
        rw [children_shape]
        exact List.mem_map.mpr ⟨t, ht, rfl⟩
theorem keysApart_of_mem_preorderList :
    ∀ ts : List (UnitTree α), (∀ t ∈ ts, t.shape.KeysApart) →
      ∀ u ∈ preorderList ts, u.shape.KeysApart
  | [], _, _, hu => absurd hu List.not_mem_nil
  | t :: ts, h, u, hu => by
      rcases List.mem_append.mp hu with hu | hu
      · exact keysApart_of_mem_preorder t (h t List.mem_cons_self) u hu
      · exact keysApart_of_mem_preorderList ts (fun t' ht' => h t' (List.mem_cons_of_mem _ ht'))
          u hu
end

end UnitTree

/-- The tree of a scan has its keys apart. -/
theorem Engine.keysApart_of_scan {σ α : Type} [Amount α] {e : Engine σ α} {memories : List σ}
    {key text : String} {tree : UnitTree α} (h : (e.scan memories key text).result = .ok tree) :
    tree.shape.KeysApart := by
  obtain ⟨root, -, hshape⟩ := shape_of_scan h
  rw [hshape]
  exact Node.keysApart_mark [] ⟨fileSpec key root, []⟩
    (UnitShape.keysApart_of_leaf (fileSpec key root)) root

/-! ## The units of an index -/

namespace UnitIndex

open UnitTree

variable {α : Type} {index : UnitIndex α} {t : UnitTree α}

namespace Represents

/-- The keys right below a unit are those in the tree. -/
theorem nodup_map_key_children (h : index.Represents t) (hkeys : t.shape.KeysApart)
    {u : SourceUnit α} (hu : u ∈ index.units) : ((index.children u.id).map (·.key)).Nodup := by
  obtain ⟨below, above, hholds, -, hmem⟩ :=
    exists_holds_of_mem none projectId t h.holds (Nat.zero_le u.id) (by
      rw [projectId, Nat.zero_add, ← h.size_eq]
      exact lt_size_of_get? (h.get?_id hu))
  obtain ⟨hroot, hbelow⟩ := hholds.root
  have hapart := keysApart_of_mem_preorder t hkeys below hmem
  rw [children_eq hroot]
  show ((index.unitsAt (childIds (u.id + 1) below.children)).map (·.key)).Nodup
  rw [map_key_unitsAt hbelow, ← keysBelow_shape]
  exact hapart.nodup

/-- Where keys are apart, a unit is found by its kind and key below its
parent. -/
theorem findIn_eq (h : index.Represents t) (hkeys : t.shape.KeysApart) {w : SourceUnit α}
    (hw : w ∈ index.units) (hid : w.id ≠ projectId) :
    ∃ parent, w.parent = some parent ∧ index.findIn parent w.kind w.key = some w := by
  obtain ⟨u, hu, hparent, hlisted, -⟩ := h.exists_parent hw hid
  refine ⟨u.id, hparent, ?_⟩
  have hmem : w ∈ index.children u.id := by
    rw [children_eq (h.get?_id hu)]
    exact List.mem_filterMap.mpr ⟨w.id, hlisted, h.get?_id hw⟩
  have hnodup := h.nodup_map_key_children hkeys hu
  rw [findIn]
  cases hfind : (index.children u.id).find? (fun v => v.kind = w.kind && v.key == w.key) with
  | none =>
      have hself := List.find?_eq_none.mp hfind w hmem
      simp at hself
  | some v =>
      have hsame := List.find?_some hfind
      rw [Bool.and_eq_true, decide_eq_true_iff, beq_iff_eq] at hsame
      have hv := List.mem_of_find?_eq_some hfind
      rw [List.inj_on_of_nodup_map hnodup hv hmem hsame.2]

/-- A tree is taken in under a key of its own. -/
theorem keysApart_insert [Amount α] {index' : UnitIndex α} {tree : UnitTree α} {id : Nat}
    (h : index.Represents t) (hkeys : t.shape.KeysApart) (htree : tree.shape.KeysApart)
    (hinsert : index.insert tree = .ok (id, index')) :
    ∃ t', index'.Represents t' ∧ t'.shape.KeysApart := by
  obtain ⟨-, t', ht', hchildren⟩ := h.insert hinsert
  refine ⟨t', ht', ?_⟩
  have hfree : tree.key ∉ t.children.map (·.key) := by
    intro htaken
    rcases index.insert_cases tree with ⟨-, hrefused⟩ | ⟨hfree, -⟩
    · rw [hrefused] at hinsert
      cases hinsert
    · rw [(h.holdsFile_iff tree.key).mpr htaken] at hfree
      cases hfree
  have hadd : (t.shape.add [tree.shape]).KeysApart := by
    refine hkeys.add_one htree ?_
    rw [keysBelow_shape, shape_unit]
    exact hfree
  refine hadd.of_children_eq ?_
  rw [children_shape, hchildren, List.map_append, ← children_shape]
  rfl

end Represents
end UnitIndex

/-! ## After any history -/

namespace Scanner

open UnitIndex

variable {σ α : Type} [Amount α]

/-- Steps keep the keys of an index apart. -/
theorem Steps.keysApart {sc sc' : Scanner σ α} (h : Steps sc sc')
    (hsc : ∃ t, sc.index.Represents t ∧ t.shape.KeysApart) :
    ∃ t, sc'.index.Represents t ∧ t.shape.KeysApart := by
  refine h.preserves (P := fun sc => ∃ t, sc.index.Represents t ∧ t.shape.KeysApart) ?_ hsc
  rintro sc₁ sc₂ step ⟨t, ht, hkeys⟩
  cases step with
  | scanned => exact ⟨t, ht, hkeys⟩
  | taken _ hscan hinsert => exact ht.keysApart_insert hkeys (Engine.keysApart_of_scan hscan) hinsert
  | cancelled => exact ⟨t, ht, hkeys⟩

/-- In the index of a scanner no two units right below the same unit have the
same key, whatever their kinds, and so every unit but the project is found
by its kind and key below its parent. -/
theorem after_keys_apart {config : ScannerConfig σ α} {grammar : Grammar} {sc : Scanner σ α}
    {events : List (Event α)} (hnew : new config grammar = .ok (sc, events))
    (requests : List Request) :
    let index := (sc.after requests).index
    (∀ u ∈ index.units, (index.children u.id).map (·.id) = u.children ∧
      ((index.children u.id).map (·.key)).Nodup) ∧
    (∀ w ∈ index.units, w.id ≠ projectId →
      ∃ parent, w.parent = some parent ∧ index.findIn parent w.kind w.key = some w) := by
  have hfresh : ∃ t, sc.index.Represents t ∧ t.shape.KeysApart :=
    ⟨_, represents_of_new hnew, UnitShape.keysApart_of_leaf _⟩
  obtain ⟨t, ht, hkeys⟩ := (steps_after sc requests).keysApart hfresh
  refine ⟨?_, ?_⟩
  · intro u hu
    exact ⟨ht.map_id_children hu, ht.nodup_map_key_children hkeys hu⟩
  · intro w hw hid
    exact ht.findIn_eq hkeys hw hid

/-- Every function of a file wants the key `f`. -/
def namesakes : ScannerConfig FileMemory Nat where
  projectKey := "project"
  metrics := [⟨Metric.functions, .sum⟩]
  filesMetric := none
  visitors := [Visitor.counter Metric.functions ["function"]]
  extractors := [⟨"functions", ["function"], fun n _ =>
    if n.kind = "function" then some ⟨.function, "f", n.startLine⟩ else none⟩]

/-- A text that is three functions on one line. -/
def threeFunctions : Grammar :=
  let function (column : Nat) : Node := ⟨"function", ⟨1, column, 1, column + 1⟩, none, none, []⟩
  .ofTable "sample"
    [("x", .ok ⟨"text", ⟨1, 1, 1, 9⟩, none, none, [function 1, function 1, function 1]⟩)] none

theorem after_keys_apart_namesakes :
    ∃ sc events, new namesakes threeFunctions = .ok (sc, events) ∧
      let index := (sc.after [.file (.text "a" "x"), .file (.text "a" "x")]).index
      index.units.toList.map (fun u => (u.parent, u.key)) =
        [(none, "project"), (some 0, "a"), (some 1, "f"), (some 1, "f:1"), (some 1, "f:1#2")] ∧
      (∀ u ∈ index.units, ((index.children u.id).map (·.key)).Nodup) ∧
      (∀ w ∈ index.units, w.id ≠ projectId →
        ∃ parent, w.parent = some parent ∧ index.findIn parent w.kind w.key = some w) := by
  refine ⟨_, _, rfl, ?_⟩
  have hnew : new namesakes threeFunctions = .ok (_, _) := rfl
  obtain ⟨hapart, hfound⟩ := after_keys_apart hnew [.file (.text "a" "x"), .file (.text "a" "x")]
  refine ⟨?_, ?_, hfound⟩
  · decide +kernel
  · intro u hu
    exact (hapart u hu).2

end Scanner
end SourceMetrics
