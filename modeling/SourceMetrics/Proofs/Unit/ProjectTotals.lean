/-
# The totals of the project

Every unit of a file gets its totals when it is closed.  The project is
never closed: the index keeps beside the arena what the files taken in so
far gather to, folds each new file into it, and works the totals of the
project out anew.  This module compares these totals with the rule for a
closed unit, `ruledTotals`: own values and the fold of the children, from
the left.

* `KeepsTotals`: the fold kept is that of the files there, and with a file
  there the totals are those of the rule.  A fresh index keeps this, a
  refused tree changes nothing, and a tree taken in keeps it
  (`KeepsTotals.insert`).
* Before the first file the totals are left empty.  The rule would give
  them the computed metrics that have a value where nothing was recorded
  (`finalize_empty_iff`), so an index without files departs from it where
  there is such a metric, and nowhere else.

Nothing is asked of the amounts: they may round.
-/
import SourceMetrics.Proofs.Metric.Totals
import SourceMetrics.Proofs.Unit.Queries

namespace SourceMetrics

/-! ## Totals where nothing was recorded -/

namespace MetricRegistry

variable {α : Type} [Amount α]

/-- No computed metric has a value where nothing was recorded. -/
def SilentOnNothing (r : MetricRegistry α) : Prop :=
  ∀ d ∈ r.definitions, ∀ inputs formula,
    d.aggregation = .computed inputs formula → formula .empty = none

/-- Other metrics have no total where nothing was recorded. -/
theorem totalOf_empty_eq_none_iff (d : MetricDefinition α) :
    totalOf .empty .empty .empty d = none ↔
      ∀ inputs formula, d.aggregation = .computed inputs formula → formula .empty = none := by
  rw [totalOf]
  cases d.aggregation with
  | sum => exact ⟨fun _ => by rintro _ _ ⟨⟩, fun _ => rfl⟩
  | max => exact ⟨fun _ => by rintro _ _ ⟨⟩, fun _ => rfl⟩
  | computed inputs formula =>
      refine ⟨fun hnone => ?_, fun h => h inputs formula rfl⟩
      rintro _ _ ⟨⟩
      exact hnone

/-- A metric that has a total keeps having one. -/
theorem isSome_value?_foldl_finalizeOne (own gathered : Measures α) (m : Metric)
    (defs : List (MetricDefinition α)) {totals : Measures α} (h : (totals.value? m).isSome) :
    ((defs.foldl (finalizeOne own gathered) totals).value? m).isSome := by
  induction defs generalizing totals with
  | nil => exact h
  | cons d rest ih =>
      rw [List.foldl_cons]
      refine ih ?_
      rw [finalizeOne]
      cases totalOf own gathered totals d with
      | none => exact h
      | some x =>
          simp only [Measures.value?_set]
          split
          · rfl
          · exact h

/-- The rule gives no totals to what has neither own values nor children
exactly where no computed metric has a value then. -/
theorem finalize_empty_iff (r : MetricRegistry α) :
    r.finalize .empty .empty = .empty ↔ r.SilentOnNothing := by
  unfold finalize SilentOnNothing
  induction r.definitions with
  | nil => exact ⟨fun _ d hd => absurd hd List.not_mem_nil, fun _ => rfl⟩
  | cons d rest ih =>
      rw [List.foldl_cons, List.forall_mem_cons, ← totalOf_empty_eq_none_iff, finalizeOne]
      cases htotal : totalOf .empty .empty .empty d with
      | none =>
          simp only [true_and]
          exact ih
      | some x =>
          -- From here on the metric has a value, which is never taken away.
          refine ⟨fun hempty => ?_, fun h => absurd h.1 (Option.some_ne_none x)⟩
          have hset : ((Measures.empty.set d.metric x).value? d.metric).isSome := by
            rw [Measures.value?_set, if_pos rfl]
            rfl
          have hkept := isSome_value?_foldl_finalizeOne .empty .empty d.metric rest hset
          simp only at hempty
          rw [hempty] at hkept
          cases hkept

end MetricRegistry

/-- A unit without what the units below it make of it. -/
def SourceUnit.bare {α : Type} (u : SourceUnit α) : SourceUnit α :=
  { u with children := [], measures := .empty }

namespace UnitIndex

variable {α : Type} [Amount α]

/-! ## What an insertion does to the project -/

section
omit [Amount α]

mutual
/-- To take a tree in changes neither the registry nor the fold kept. -/
theorem registry_attach (index : UnitIndex α) (parent : Nat) :
    ∀ t : UnitTree α, (index.attach parent t).2.registry = index.registry ∧
      (index.attach parent t).2.gathered = index.gathered
  | ⟨_, _, _, _, _, _, children⟩ => registry_attachList (index.register _) index.units.size children
theorem registry_attachList (index : UnitIndex α) (parent : Nat) :
    ∀ ts : List (UnitTree α), (index.attachList parent ts).registry = index.registry ∧
      (index.attachList parent ts).gathered = index.gathered
  | [] => ⟨rfl, rfl⟩
  | t :: ts => by
      obtain ⟨hregistry, hgathered⟩ := registry_attach index parent t
      have hrest := registry_attachList
        ((index.attach parent t).2.addChild parent (index.attach parent t).1) parent ts
      exact ⟨hrest.1.trans hregistry, hrest.2.trans hgathered⟩
end

end

omit [Amount α] in
/-- The project is the root of the tree that the index represents. -/
theorem Represents.project_eq {index : UnitIndex α} {t : UnitTree α} (h : index.Represents t) :
    index.project = t.rootUnit none projectId := by
  rw [project, h.holds.root.1]
  rfl

/-- A tree that is taken in is folded into what the index keeps, and the
totals of the project are worked out from that.  Nothing else is changed
of the project. -/
theorem totals_insert {index index' : UnitIndex α} {t tree : UnitTree α} {id : Nat}
    (h : index.Represents t) (hinsert : index.insert tree = .ok (id, index')) :
    index'.registry = index.registry ∧
      index'.gathered = index.registry.mergeChild index.gathered tree.measures ∧
      index'.project.bare = index.project.bare ∧
      index'.project.measures = index.registry.finalize index.project.own index'.gathered := by
  unfold UnitIndex.insert at hinsert
  split at hinsert
  · cases hinsert
  · let start : UnitIndex α :=
      { index with gathered := index.registry.mergeChild index.gathered tree.measures }
    obtain ⟨hregistry, hgathered⟩ := registry_attach start projectId tree
    obtain ⟨-, hunits⟩ := attach_units start projectId tree
    have hanswer : Except.ok ((start.attach projectId tree).1,
        (start.attach projectId tree).2.addToProject (start.attach projectId tree).1) =
          (.ok (id, index') : Except ScanError (Nat × UnitIndex α)) := hinsert
    generalize start.attach projectId tree = answer at hregistry hgathered hunits hanswer
    obtain ⟨id', grown⟩ := answer
    obtain ⟨rfl, rfl⟩ := Prod.mk.inj (Except.ok.inj hanswer)
    -- The project stands first, before what was taken in.
    have hproject : grown.get? projectId = some index.project := by
      have hroot := h.holds.root.1
      rw [get?_eq_getElem?] at hroot
      have hlt := (List.getElem?_eq_some_iff.mp hroot).1
      rw [get?_eq_getElem?, hunits, List.getElem?_append_left hlt, h.project_eq]
      exact hroot
    have hgrown : (grown.addToProject id').project =
        { index.project with
          children := index.project.children ++ [id']
          measures := grown.registry.finalize index.project.own grown.gathered } := by
      rw [get?] at hproject
      rw [project, get?, addToProject, Array.getElem?_modify, if_pos rfl, hproject]
      rfl
    refine ⟨hregistry, hgathered, ?_, ?_⟩
    · rw [hgrown]
      rfl
    · rw [hgrown]
      exact congrArg (·.finalize index.project.own grown.gathered) hregistry

/-- The root stays of its kind, and its own values stay. -/
theorem Represents.root_insert {index index' : UnitIndex α} {t t' tree : UnitTree α} {id : Nat}
    (h : index.Represents t) (h' : index'.Represents t')
    (hinsert : index.insert tree = .ok (id, index')) : t'.kind = t.kind ∧ t'.own = t.own := by
  obtain ⟨-, -, hbare, -⟩ := totals_insert h hinsert
  rw [h'.project_eq, h.project_eq] at hbare
  exact ⟨congrArg (·.kind) hbare, congrArg (·.own) hbare⟩

/-! ## The totals kept -/

/-- The totals of the project by the rule for every other unit: from its own
values and from the totals of its files, folded together from the left. -/
def ruledTotals (index : UnitIndex α) : Measures α :=
  index.registry.finalize index.project.own
    (index.registry.gather ((index.children projectId).map (·.measures)))

/-- The index keeps the fold of its files, and the totals of the rule from
the first file on. -/
structure KeepsTotals (index : UnitIndex α) : Prop where
  gathered : index.gathered = index.registry.gather ((index.children projectId).map (·.measures))
  measures : index.project.measures =
    if (index.children projectId).isEmpty then .empty else index.ruledTotals

theorem keepsTotals_new (key : String) (registry : MetricRegistry α) :
    (new key registry).KeepsTotals :=
  ⟨rfl, rfl⟩

/-- The totals of the project, in terms of its tree. -/
theorem KeepsTotals.measures_eq {index : UnitIndex α} {t : UnitTree α}
    (hkeeps : index.KeepsTotals) (h : index.Represents t) :
    t.measures =
      if t.children.isEmpty then .empty
      else index.registry.finalize t.own (index.registry.gather (t.children.map (·.measures))) := by
  have hchildren : (index.children projectId).map (·.measures) = t.children.map (·.measures) :=
    h.map_children_project fun _ _ _ => rfl
  have hempty : (index.children projectId).isEmpty = t.children.isEmpty := by
    rw [← List.isEmpty_map (f := (·.measures)), hchildren, List.isEmpty_map]
  have hmeasures := hkeeps.measures
  rw [ruledTotals, hchildren, hempty, h.project_eq] at hmeasures
  exact hmeasures

/-- A tree that is taken in comes last among the files. -/
theorem measures_children_insert {index index' : UnitIndex α} {t tree : UnitTree α} {id : Nat}
    (h : index.Represents t) (hinsert : index.insert tree = .ok (id, index')) :
    (index'.children projectId).map (·.measures) =
      (index.children projectId).map (·.measures) ++ [tree.measures] := by
  obtain ⟨-, t', ht', hchildren⟩ := h.insert hinsert
  have hmeasures : ∀ {i : UnitIndex α} {t : UnitTree α}, i.Represents t →
      (i.children projectId).map (·.measures) = t.children.map (·.measures) :=
    fun h => h.map_children_project fun _ _ _ => rfl
  rw [hmeasures ht', hmeasures h, hchildren, List.map_append]
  rfl

theorem KeepsTotals.insert {index index' : UnitIndex α} {t tree : UnitTree α} {id : Nat}
    (hkeeps : index.KeepsTotals) (h : index.Represents t)
    (hinsert : index.insert tree = .ok (id, index')) : index'.KeepsTotals := by
  obtain ⟨hregistry, hgathered, hbare, hmeasures⟩ := totals_insert h hinsert
  have hown : index'.project.own = index.project.own := congrArg (·.own) hbare
  have hchildren := measures_children_insert h hinsert
  have hfold : index'.gathered =
      index'.registry.gather ((index'.children projectId).map (·.measures)) := by
    rw [hgathered, hregistry, hchildren, hkeeps.gathered, MetricRegistry.gather,
      MetricRegistry.gather, List.foldl_append]
    rfl
  refine ⟨hfold, ?_⟩
  have hsome : (index'.children projectId).isEmpty = false := by
    rw [← List.isEmpty_map (f := (·.measures)), hchildren]
    cases (index.children projectId).map (·.measures) <;> rfl
  rw [hsome, hmeasures, ruledTotals, ← hfold, hregistry, hown]
  rfl

/-- Any offers keep this, accepted or refused; the registry stays, and of the
project all that does not come from its files. -/
theorem KeepsTotals.offerAll {index : UnitIndex α} {t : UnitTree α} (hkeeps : index.KeepsTotals)
    (h : index.Represents t) (offers : List (UnitTree α)) :
    (index.offerAll offers).KeepsTotals ∧ (index.offerAll offers).registry = index.registry ∧
      (index.offerAll offers).project.bare = index.project.bare := by
  induction offers generalizing index t with
  | nil => exact ⟨hkeeps, rfl, rfl⟩
  | cons tree rest ih =>
      rw [UnitIndex.offerAll, List.foldl_cons]
      cases hinsert : index.insert tree with
      | error err =>
          have hoffer : index.offer tree = index := by simp only [offer, hinsert]
          rw [hoffer]
          exact ih hkeeps h
      | ok answer =>
          obtain ⟨id, index'⟩ := answer
          have hoffer : index.offer tree = index' := by simp only [offer, hinsert]
          obtain ⟨-, t', ht', -⟩ := h.insert hinsert
          obtain ⟨hregistry, -, hbare, -⟩ := totals_insert h hinsert
          obtain ⟨hkeeps', hregistry', hbare'⟩ := ih (hkeeps.insert h hinsert) ht'
          rw [hoffer]
          exact ⟨hkeeps', hregistry'.trans hregistry, hbare'.trans hbare⟩

/-! ## Any offers -/

/-- After any offers, accepted or refused, the totals of the project are
those of the rule for every other unit as soon as there is a file, and empty
before.  So they follow the rule where there is a file, and without one where
no computed metric has a value on nothing. -/
theorem offerAll_project_totals (key : String) (registry : MetricRegistry α)
    (offers : List (UnitTree α)) :
    let index := (new key registry).offerAll offers
    (index.project.measures =
      if (index.children projectId).isEmpty then .empty else index.ruledTotals) ∧
    (index.project.measures = index.ruledTotals ↔
      index.children projectId ≠ [] ∨ registry.SilentOnNothing) := by
  intro index
  obtain ⟨hkeeps, hregistry, hbare⟩ :=
    (keepsTotals_new key registry).offerAll (represents_new key registry) offers
  have hown : index.project.own = .empty := congrArg (·.own) hbare
  refine ⟨hkeeps.measures, ?_⟩
  rw [hkeeps.measures]
  cases hfiles : index.children projectId with
  | cons file rest => exact ⟨fun _ => .inl (List.cons_ne_nil file rest), fun _ => rfl⟩
  | nil =>
      have hruled : index.ruledTotals = registry.finalize .empty .empty := by
        rw [ruledTotals, hfiles, hregistry, hown]
        rfl
      rw [List.isEmpty_nil, if_pos rfl, hruled, eq_comm, MetricRegistry.finalize_empty_iff]
      exact ⟨.inr, fun h => h.resolve_left fun hne => hne rfl⟩

end UnitIndex

/-- The files, and a metric that adds up all others and so is zero where
there are none. -/
def filesAndTotal : List (MetricDefinition Float) :=
  [⟨Metric.files, .sum⟩, ⟨"total", .computed [] Formula.total⟩]

/-- A fresh project has no value of a metric that is zero where nothing was
recorded; by the rule it would. -/
theorem fresh_project_lacks_total :
    ∃ registry, MetricRegistry.ofDefinitions filesAndTotal = .ok registry ∧
      let index := (UnitIndex.new "p" registry).offerAll []
      index.project.measures.value? "total" = none ∧
        index.ruledTotals.value? "total" = some 0 ∧
        index.project.measures ≠ index.ruledTotals := by
  refine ⟨⟨filesAndTotal⟩, rfl, rfl, ?_, ?_⟩
  · rfl
  · intro h
    have htotal := congrArg (fun ms => (ms.value? "total").isSome) h
    cases htotal

end SourceMetrics
