/-
# Visitors do not meddle with one another

The values of the metrics that a local visitor owns are those of a pass that
it makes alone, on every unit of the file.  So nothing that other visitors
do can change them, whatever they try to write, and it does not matter in
which order visitors are registered.

The link between a pass and the same pass with one visitor is `Linked`.
What is added here is the beginning of a file, where the metric that counts
files is set, and its end: the own values decide the totals, and the lines
of the file are those that its visitors mark alone (`mem_lines_iff`).
-/
import Mathlib.Data.List.Permutation
import SourceMetrics.Proofs.Scan.Acceptance
import SourceMetrics.Proofs.Scan.Solo
import SourceMetrics.Proofs.Unit.Agreement

namespace SourceMetrics
namespace Engine

variable {σ α : Type}

open DispatchPlan

/-! ## One visitor of a configuration -/

theorem alone_engineOf {config : ScannerConfig σ α} {v : Visitor σ α}
    (h : config.visitors = [v]) (grammar : Grammar) (registry : MetricRegistry α) :
    (engineOf config grammar registry).Alone v where
  visitors := h
  routes := congrArg (DispatchPlan.empty.routes 0) h

/-- A configuration and one with a visitor of it alone. -/
theorem isolates_engineOf {config config₀ : ScannerConfig σ α} {i : Nat} {v : Visitor σ α}
    (hv : config.visitors[i]? = some v) (hv₀ : config₀.visitors = [v])
    (hextractors : config₀.extractors = config.extractors) (grammar grammar₀ : Grammar)
    (registry registry₀ : MetricRegistry α) :
    (engineOf config grammar registry).Isolates (engineOf config₀ grammar₀ registry₀) i v where
  visitor := hv
  routes := rfl
  single := alone_engineOf hv₀ grammar₀ registry₀
  extractors := hextractors

variable [Amount α]

theorem recorded_fileUnit (e : Engine σ α) (file : String) (root : Node) (m : Metric) :
    (e.fileUnit file root).recorded m = (if e.filesMetric = some m then some 1 else none, []) := by
  rw [fileUnit, OpenUnit.recorded]
  cases e.filesMetric with
  | none => rfl
  | some k =>
      show ((Measures.set _ k 1).value? m, _) = _
      rw [Measures.value?_set]
      simp only [Option.some.injEq]
      rfl

theorem shape_fileUnit (e : Engine σ α) (file : String) (root : Node) :
    (e.fileUnit file root).shape = ⟨fileSpec file root, []⟩ := by
  unfold fileUnit
  cases e.filesMetric <;> rfl

theorem owns_treeOf (e : Engine σ α) (s : ScanState σ α) (u : OpenUnit α) (m : Metric) :
    (e.treeOf s u).owns m = (u.recorded m).1 :: (u.recorded m).2 := rfl

theorem exists_traverse (e : Engine σ α) (file : String) (root : Node) (memories : List σ)
    (events : List (Event α)) :
    ∃ tree s, e.traverse file root memories events = .ok (tree, s) := by
  obtain ⟨s, u, -, -, htraverse, -⟩ := traverse_does e file root memories events
  exact ⟨_, s, htraverse⟩

/-- Extractors alone decide the shape of the units. -/
theorem shape_eq_of_traverse {e e' : Engine σ α} (hextractors : e'.extractors = e.extractors)
    {file : String} {root : Node} {memories memories' : List σ} {events : List (Event α)}
    {tree tree' : UnitTree α} {s s' : ScanState σ α}
    (h : e.traverse file root memories events = .ok (tree, s))
    (h' : e'.traverse file root memories' events = .ok (tree', s')) : tree'.shape = tree.shape := by
  obtain ⟨s₁, u, -, -, htraverse, hshape⟩ := traverse_does e file root memories events
  obtain ⟨s₂, u', -, -, htraverse', hshape'⟩ := traverse_does e' file root memories' events
  cases h.symm.trans htraverse
  cases h'.symm.trans htraverse'
  rw [hshape, hshape', marking, marking, hextractors]

theorem accounted_of_traverse {e : Engine σ α} {file : String} {root : Node} {memories : List σ}
    {events : List (Event α)} {tree : UnitTree α} {s : ScanState σ α}
    (h : e.traverse file root memories events = .ok (tree, s)) : tree.Accounted e.registry := by
  obtain ⟨tree', s', htraverse, haccounted⟩ := traverse_accounted e file root memories events
  cases h.symm.trans htraverse
  exact haccounted

/-- A pass and the same pass with one of its visitors, which is local.  The
own values of a metric agree when no other visitor owns it and it counts
files in both or in neither; and the visitor marks alone the lines that it
marks among others, and is left in the same state. -/
theorem traverse_linked {e alone : Engine σ α} {i : Nat} {v : Visitor σ α}
    (hisolates : e.Isolates alone i v) (hlocal : v.Local) {P : Metric → Prop}
    (howns : ∀ m ∈ v.metrics, P m)
    (hothers : ∀ j w, j ≠ i → e.visitors[j]? = some w → ∀ m, P m → m ∉ w.metrics)
    (hfiles : ∀ m, P m → (e.filesMetric = some m ↔ alone.filesMetric = some m))
    (file : String) (root : Node) {memories : List σ} {memory : σ}
    (hmemory : memories[i]? = some memory) (events : List (Event α)) :
    ∃ tree s tree' s', e.traverse file root memories events = .ok (tree, s) ∧
      alone.traverse file root [memory] events = .ok (tree', s') ∧
      s.memories[i]? = s'.memories[0]? ∧
      (∀ m, P m → tree.owns m = tree'.owns m) ∧
      ∀ line, line ∈ s'.noSonarLines ↔
        e.Marks file i line (e.schedule file root) (e.start file root memories events) := by
  obtain ⟨s, u, hperform, hu, htraverse, -⟩ := traverse_does e file root memories events
  obtain ⟨s', u', hperform', hu', htraverse', -⟩ :=
    traverse_does alone file root [memory] events
  have hstart : (e.start file root memories events).Linked P i
      (alone.start file root [memory] events) := by
    refine ⟨.cons ⟨?_, fun m hm => ?_⟩ .nil, hmemory⟩
    · rw [shape_fileUnit, shape_fileUnit]
    · rw [recorded_fileUnit, recorded_fileUnit]
      simp only [hfiles m hm]
  obtain ⟨t', ht', hlinked, hlines⟩ :=
    performAll_linked hisolates hlocal howns hothers hperform hstart
  rw [schedule_only hisolates, hperform'] at ht'
  obtain rfl := Option.some.inj ht'
  have hunits := hlinked.units
  rw [hu, hu'] at hunits
  obtain ⟨hinner, -⟩ := List.forall₂_cons.mp hunits
  refine ⟨_, s, _, s', htraverse, htraverse', hlinked.memory, fun m hm => ?_, fun line => ?_⟩
  · rw [owns_treeOf, owns_treeOf, hinner.recorded m hm]
  · rw [hlines]
    exact or_iff_right (LineSet.not_mem_empty line)

/-! ## One visitor among others -/

section
variable {config config' : ScannerConfig σ α} {registry registry' : MetricRegistry α}
  {crew crew' : List (Visitor σ α × σ)} {member : Visitor σ α × σ}

/-- A pass and the pass of one of its visitors alone.  The own values agree
on the metrics of the visitor, and on metrics that no visitor writes as far
as they are the same for the file. -/
theorem traverse_alone (hsound : Sound config registry) (hcrew : config.visitors = crew.map Prod.fst)
    (hsound' : Sound config' registry') (halone : config'.visitors = [member.1])
    (hextractors : config'.extractors = config.extractors) {i : Nat}
    (hmember : crew[i]? = some member) (hlocal : member.1.Local) (grammar grammar' : Grammar)
    (file : String) (root : Node) (events : List (Event α)) :
    ∃ tree s tree' s',
      (engineOf config grammar registry).traverse file root (crew.map Prod.snd) events =
        .ok (tree, s) ∧
      (engineOf config' grammar' registry').traverse file root [member.2] events =
        .ok (tree', s') ∧
      s.memories[i]? = s'.memories[0]? ∧
      (∀ m, m ∈ member.1.metrics ∨
          (m ∉ written config.visitors ∧ config.filesMetric = config'.filesMetric) →
        tree.owns m = tree'.owns m) ∧
      ∀ line, line ∈ s'.noSonarLines ↔
        (engineOf config grammar registry).Marks file i line
          ((engineOf config grammar registry).schedule file root)
          ((engineOf config grammar registry).start file root (crew.map Prod.snd) events) := by
  have hv : config.visitors[i]? = some member.1 := by
    rw [hcrew, List.getElem?_map, hmember]
    rfl
  have hmemory : (crew.map Prod.snd)[i]? = some member.2 := by
    rw [List.getElem?_map, hmember]
    rfl
  refine traverse_linked (isolates_engineOf hv halone hextractors grammar grammar' registry registry')
    hlocal (fun m hm => .inl hm) ?_ ?_ file root hmemory events
  · rintro j w hj hw m (hm | ⟨hm, -⟩) hmem
    · exact hj (hsound.accepts.sole_owner hv hw hm hmem).symm
    · exact hm (mem_written.mpr ⟨w, List.mem_of_getElem? hw, hmem⟩)
  · rintro m (hm | ⟨-, hfiles⟩)
    · have hwritten : m ∈ written config.visitors :=
        mem_written.mpr ⟨member.1, List.mem_of_getElem? hv, hm⟩
      have hwritten' : m ∈ written config'.visitors := by
        rw [halone]
        exact mem_written.mpr ⟨member.1, List.mem_singleton_self _, hm⟩
      constructor
      · intro hfiles
        exact absurd hwritten (hsound.files m hfiles).2
      · intro hfiles
        exact absurd hwritten' (hsound'.files m hfiles).2
    · show config.filesMetric = some m ↔ config'.filesMetric = some m
      rw [hfiles]

/-- Two passes that share a local visitor agree in the values of its metrics. -/
theorem owns_eq_of_shared (hsound : Sound config registry)
    (hcrew : config.visitors = crew.map Prod.fst) (hsound' : Sound config' registry')
    (hcrew' : config'.visitors = crew'.map Prod.fst)
    (hextractors : config'.extractors = config.extractors) (hmember : member ∈ crew)
    (hmember' : member ∈ crew') (hlocal : member.1.Local) (grammar grammar' : Grammar)
    (file : String) (root : Node) (events : List (Event α)) {tree tree' : UnitTree α}
    {s s' : ScanState σ α}
    (htraverse : (engineOf config grammar registry).traverse file root (crew.map Prod.snd) events =
      .ok (tree, s))
    (htraverse' : (engineOf config' grammar' registry').traverse file root (crew'.map Prod.snd)
      events = .ok (tree', s')) :
    ∀ m ∈ member.1.metrics, tree'.owns m = tree.owns m := by
  obtain ⟨i, hi⟩ := List.getElem?_of_mem hmember
  obtain ⟨j, hj⟩ := List.getElem?_of_mem hmember'
  have hv : member.1 ∈ config.visitors := hcrew ▸ List.mem_map_of_mem hmember
  obtain ⟨tree₁, s₁, alone, s₂, htraverse₁, halone, -, howns, -⟩ :=
    traverse_alone hsound hcrew (hsound.alone hv) rfl rfl hi hlocal grammar grammar file root events
  obtain ⟨tree₃, s₃, alone', s₄, htraverse₃, halone', -, howns', -⟩ :=
    traverse_alone hsound' hcrew' (hsound.alone hv) rfl hextractors.symm hj hlocal grammar'
      grammar file root events
  cases htraverse.symm.trans htraverse₁
  cases htraverse'.symm.trans htraverse₃
  cases halone.symm.trans halone'
  intro m hm
  exact (howns' m (.inl hm)).trans (howns m (.inl hm)).symm

/-- Where own values agree on a metric that visitors may write, so do the
totals, when the metric is defined alike. -/
theorem totals_eq_of_traverse (hsound : Sound config registry) (hsound' : Sound config' registry')
    {m : Metric} (hm : m ∈ written config.visitors) (hget : registry'.get? m = registry.get? m)
    {e e' : Engine σ α} (he : e.registry = registry) (he' : e'.registry = registry')
    {file : String} {root : Node} {memories memories' : List σ} {events : List (Event α)}
    {tree tree' : UnitTree α} {s s' : ScanState σ α}
    (htraverse : e.traverse file root memories events = .ok (tree, s))
    (htraverse' : e'.traverse file root memories' events = .ok (tree', s'))
    (hshape : tree'.shape = tree.shape) (howns : tree'.owns m = tree.owns m) :
    tree'.totals m = tree.totals m := by
  have haccounted : tree.Accounted registry := he ▸ accounted_of_traverse htraverse
  have haccounted' : tree'.Accounted registry' := he' ▸ accounted_of_traverse htraverse'
  have hnodup := MetricRegistry.nodup_of_ofDefinitions hsound.registered
  have hnodup' := MetricRegistry.nodup_of_ofDefinitions hsound'.registered
  obtain ⟨d, hd, hcomputed⟩ := hsound.accepts.writable m hm
  obtain ⟨hmem', -⟩ := (MetricRegistry.get?_eq_some_iff hnodup').mp (hget.trans hd)
  obtain ⟨hmem, rfl⟩ := (MetricRegistry.get?_eq_some_iff hnodup).mp hd
  exact UnitTree.totals_eq_of_owns_eq hnodup' hnodup hmem' hmem hcomputed tree' tree haccounted'
    haccounted hshape howns

end

/-! ## The lines of a file -/

/-- Finished units have no lines marked; those of a file are kept apart until
its end. -/
def Unmarked (s : ScanState σ α) : Prop := ∀ u ∈ s.units, ∀ c ∈ u.below, c.noSonarLines = []

theorem unmarked_of_performed (e : Engine σ α) (file : String) {s t : ScanState σ α} {a : Act}
    (hs : Unmarked s) (h : e.Performed file s a t) : Unmarked t := by
  cases h with
  | opening hu =>
      intro u hu'
      rcases List.mem_cons.mp hu' with rfl | hu'
      · exact fun c hc => absurd hc List.not_mem_nil
      · exact hs u hu'
  | @answered hook position node u outer v memory hu hv hm =>
      intro w hw
      rcases List.mem_cons.mp hw with rfl | hw
      · exact hs u (hu ▸ List.mem_cons_self)
      · exact hs w (hu ▸ List.mem_cons_of_mem u hw)
  | unanswered _ _ => exact hs
  | @closing u parent outer hu =>
      have hinner := hs u (hu ▸ List.mem_cons_self)
      have hparent := hs parent (hu ▸ List.mem_cons_of_mem u List.mem_cons_self)
      intro w hw
      rcases List.mem_cons.mp hw with rfl | hw
      · intro c hc
        rw [OpenUnit.below_addChild] at hc
        rcases List.mem_append.mp hc with hc | hc
        · exact hparent c hc
        · rcases List.mem_cons.mp hc with rfl | hc
          · rfl
          · exact hinner c hc
      · exact hs w (hu ▸ List.mem_cons_of_mem u (List.mem_cons_of_mem parent hw))

/-- All lines that are marked stand on the unit of the file. -/
theorem unmarked_of_traverse {e : Engine σ α} {file : String} {root : Node} {memories : List σ}
    {events : List (Event α)} {tree : UnitTree α} {s : ScanState σ α}
    (h : e.traverse file root memories events = .ok (tree, s)) :
    UnitTree.Unmarked tree.children ∧ tree.noSonarLines = s.noSonarLines.toList := by
  obtain ⟨s', u, hperform, hu, htraverse, -⟩ := traverse_does e file root memories events
  cases h.symm.trans htraverse
  have hstart : Unmarked (e.start file root memories events) := by
    intro w hw
    obtain rfl := List.mem_singleton.mp hw
    have hbelow : (e.fileUnit file root).below = [] := by
      unfold fileUnit
      cases e.filesMetric <;> rfl
    rw [hbelow]
    exact fun c hc => absurd hc List.not_mem_nil
  have hs : Unmarked s := performAll_preserves e file (unmarked_of_performed e file) hperform hstart
  exact ⟨hs u (hu ▸ List.mem_cons_self), rfl⟩

theorem not_marks_of_none {e : Engine σ α} {file : String} {i line : Nat}
    (hv : e.visitors[i]? = none) (acts : List Act) (s : ScanState σ α) :
    ¬ e.Marks file i line acts s := by
  induction acts generalizing s with
  | nil => exact id
  | cons a acts ih =>
      rintro (⟨hposition, hmark⟩ | ⟨t, -, hmarks⟩)
      · cases a with
        | opening unit => cases hposition
        | calling hook position node within =>
            obtain rfl := Option.some.inj hposition
            cases hu : s.units with
            | nil => simp only [writesOf, hu, List.not_mem_nil] at hmark
            | cons u outer => simp only [writesOf, hu, hv, List.not_mem_nil] at hmark
        | closing => cases hposition
      · exact ih t hmarks

section
variable {config : ScannerConfig σ α} {registry : MetricRegistry α}
  {crew crew' : List (Visitor σ α × σ)}

/-- When all visitors are local, the lines of a file are those that each
visitor marks alone. -/
theorem mem_lines_iff (hsound : Sound config registry) (hcrew : config.visitors = crew.map Prod.fst)
    (hlocal : ∀ member ∈ crew, member.1.Local) (grammar : Grammar) (file : String) (root : Node)
    (events : List (Event α)) {tree : UnitTree α} {s : ScanState σ α}
    (htraverse : (engineOf config grammar registry).traverse file root (crew.map Prod.snd) events =
      .ok (tree, s)) (line : Nat) :
    line ∈ s.noSonarLines ↔ ∃ member ∈ crew, ∃ tree' s',
      (engineOf { config with visitors := [member.1] } grammar registry).traverse file root
        [member.2] events = .ok (tree', s') ∧ line ∈ s'.noSonarLines := by
  obtain ⟨s₁, u, hperform, -, htraverse₁, -⟩ :=
    traverse_does (engineOf config grammar registry) file root (crew.map Prod.snd) events
  cases htraverse.symm.trans htraverse₁
  have hstart : line ∉ ((engineOf config grammar registry).start file root (crew.map Prod.snd)
      events).noSonarLines := LineSet.not_mem_empty line
  rw [mem_lines_of_performAll hperform line, or_iff_right hstart]
  have hv : ∀ member ∈ crew, member.1 ∈ config.visitors :=
    fun member hmember => hcrew ▸ List.mem_map_of_mem hmember
  constructor
  · rintro ⟨i, hmarks⟩
    cases hi : crew[i]? with
    | none =>
        refine absurd hmarks (not_marks_of_none ?_ _ _)
        show config.visitors[i]? = none
        rw [hcrew, List.getElem?_map, hi]
        rfl
    | some member =>
        have hmember : member ∈ crew := List.mem_of_getElem? hi
        obtain ⟨-, -, tree', s', -, halone, -, -, hlines⟩ :=
          traverse_alone hsound hcrew (hsound.alone (hv member hmember)) rfl rfl hi
            (hlocal member hmember) grammar grammar file root events
        exact ⟨member, hmember, tree', s', halone, (hlines line).mpr hmarks⟩
  · rintro ⟨member, hmember, tree', s', halone, hline⟩
    obtain ⟨i, hi⟩ := List.getElem?_of_mem hmember
    obtain ⟨-, -, tree₂, s₂, -, halone₂, -, -, hlines⟩ :=
      traverse_alone hsound hcrew (hsound.alone (hv member hmember)) rfl rfl hi
        (hlocal member hmember) grammar grammar file root events
    cases halone.symm.trans halone₂
    exact ⟨i, (hlines line).mp hline⟩

/-! ## The order of visitors -/

/-- Local visitors in another order record the same values of every metric. -/
theorem owns_eq_of_perm (hsound : Sound config registry)
    (hcrew : config.visitors = crew.map Prod.fst) (hlocal : ∀ member ∈ crew, member.1.Local)
    (hperm : crew.Perm crew') (grammar : Grammar) (file : String) (root : Node)
    (events : List (Event α)) {tree tree' : UnitTree α} {s s' : ScanState σ α}
    (htraverse : (engineOf config grammar registry).traverse file root (crew.map Prod.snd) events =
      .ok (tree, s))
    (htraverse' : (engineOf { config with visitors := crew'.map Prod.fst } grammar
      registry).traverse file root (crew'.map Prod.snd) events = .ok (tree', s')) (m : Metric) :
    tree'.owns m = tree.owns m := by
  -- The visitor that owns the metric, or any visitor where none does.
  obtain ⟨member, hmember, howned⟩ : ∃ member ∈ crew,
      m ∈ member.1.metrics ∨ m ∉ written config.visitors := by
    by_cases hm : m ∈ written config.visitors
    · obtain ⟨v, hv, hm⟩ := mem_written.mp hm
      rw [hcrew] at hv
      obtain ⟨member, hmember, rfl⟩ := List.mem_map.mp hv
      exact ⟨member, hmember, .inl hm⟩
    · have hne : crew ≠ [] := by
        rintro rfl
        exact hsound.visitors hcrew
      obtain ⟨member, rest, rfl⟩ := List.exists_cons_of_ne_nil hne
      exact ⟨member, List.mem_cons_self, .inr hm⟩
  have hvisitors : config.visitors.Perm (crew'.map Prod.fst) := hcrew ▸ hperm.map Prod.fst
  have hv : member.1 ∈ config.visitors := hcrew ▸ List.mem_map_of_mem hmember
  obtain ⟨i, hi⟩ := List.getElem?_of_mem hmember
  obtain ⟨j, hj⟩ := List.getElem?_of_mem (hperm.mem_iff.mp hmember)
  obtain ⟨tree₁, s₁, alone, s₂, htraverse₁, halone, -, howns, -⟩ :=
    traverse_alone hsound hcrew (hsound.alone hv) rfl rfl hi (hlocal member hmember) grammar grammar
      file root events
  obtain ⟨tree₃, s₃, alone', s₄, htraverse₃, halone', -, howns', -⟩ :=
    traverse_alone (hsound.perm hvisitors) rfl (hsound.alone hv) rfl rfl hj
      (hlocal member hmember) grammar grammar file root events
  cases htraverse.symm.trans htraverse₁
  cases htraverse'.symm.trans htraverse₃
  cases halone.symm.trans halone'
  rw [howns m (howned.imp_right fun h => ⟨h, rfl⟩)]
  refine howns' m (howned.imp_right fun h => ⟨fun hmem => h ?_, rfl⟩)
  exact (perm_written hvisitors).mem_iff.mpr hmem

/-- Local visitors in another order give the same tree. -/
theorem tree_eq_of_perm (hsound : Sound config registry)
    (hcrew : config.visitors = crew.map Prod.fst) (hlocal : ∀ member ∈ crew, member.1.Local)
    (hperm : crew.Perm crew') (grammar : Grammar) (file : String) (root : Node)
    (events : List (Event α)) {tree tree' : UnitTree α} {s s' : ScanState σ α}
    (htraverse : (engineOf config grammar registry).traverse file root (crew.map Prod.snd) events =
      .ok (tree, s))
    (htraverse' : (engineOf { config with visitors := crew'.map Prod.fst } grammar
      registry).traverse file root (crew'.map Prod.snd) events = .ok (tree', s')) :
    tree' = tree := by
  have hsound' := hsound.perm (hcrew ▸ hperm.map Prod.fst)
  have hshape : tree'.shape = tree.shape := by
    refine shape_eq_of_traverse ?_ htraverse htraverse'
    rfl
  have howns : ∀ m, tree'.owns m = tree.owns m :=
    owns_eq_of_perm hsound hcrew hlocal hperm grammar file root events htraverse htraverse'
  have hlines : s'.noSonarLines = s.noSonarLines := by
    refine LineSet.ext_mem fun line => ?_
    rw [mem_lines_iff hsound hcrew hlocal grammar file root events htraverse,
      mem_lines_iff hsound' rfl (fun member hmember => hlocal member (hperm.mem_iff.mpr hmember))
        grammar file root events htraverse']
    simp only [hperm.mem_iff]
  obtain ⟨hunmarked, hroot⟩ := unmarked_of_traverse htraverse
  obtain ⟨hunmarked', hroot'⟩ := unmarked_of_traverse htraverse'
  have hmarked : tree'.noSonarLines = tree.noSonarLines := by rw [hroot, hroot', hlines]
  have haccounted : tree.Accounted registry := accounted_of_traverse htraverse
  have haccounted' : tree'.Accounted registry := accounted_of_traverse htraverse'
  exact UnitTree.eq_of_owns_eq tree' tree haccounted' haccounted hshape
    (UnitTree.map_own_eq_of_owns_eq hshape howns) hmarked hunmarked' hunmarked

end

/-- Visitors do not meddle with one another.  A local visitor records on
every unit what it records alone, and its metrics have the totals they have
alone.  The same goes for any other visitors around it, local or not and
whatever they try to write: where a local visitor is among the visitors of
two configurations with the same extractors, its metrics have the same
values, and the same totals as far as they are defined alike.  When all
visitors are local, every order of them gives the same tree, with the same
lines marked. -/
theorem traverse_isolates_visitors {config : ScannerConfig σ α} {grammar : Grammar}
    {crew : List (Visitor σ α × σ)} {e : Engine σ α} (hcrew : config.visitors = crew.map Prod.fst)
    (he : build config grammar = .ok e) (file : String) (root : Node) (events : List (Event α)) :
    ∃ tree s, e.traverse file root (crew.map Prod.snd) events = .ok (tree, s) ∧
      (∀ member ∈ crew, member.1.Local →
        ∃ alone tree' s', build { config with visitors := [member.1] } grammar = .ok alone ∧
          alone.traverse file root [member.2] events = .ok (tree', s') ∧
          tree'.shape = tree.shape ∧
          ∀ m ∈ member.1.metrics, tree'.owns m = tree.owns m ∧ tree'.totals m = tree.totals m) ∧
      (∀ (config' : ScannerConfig σ α) (grammar' : Grammar) (crew' : List (Visitor σ α × σ))
          (e' : Engine σ α), config'.visitors = crew'.map Prod.fst →
        config'.extractors = config.extractors → build config' grammar' = .ok e' →
        ∃ tree' s', e'.traverse file root (crew'.map Prod.snd) events = .ok (tree', s') ∧
          tree'.shape = tree.shape ∧
          ∀ member ∈ crew, member ∈ crew' → member.1.Local → ∀ m ∈ member.1.metrics,
            tree'.owns m = tree.owns m ∧
              (e'.registry.get? m = e.registry.get? m → tree'.totals m = tree.totals m)) ∧
      ((∀ member ∈ crew, member.1.Local) → ∀ crew' : List (Visitor σ α × σ), crew.Perm crew' →
        ∃ e' s', build { config with visitors := crew'.map Prod.fst } grammar = .ok e' ∧
          e'.traverse file root (crew'.map Prod.snd) events = .ok (tree, s')) := by
  obtain ⟨registry, hsound, rfl⟩ := (build_eq_ok_iff config grammar e).mp he
  obtain ⟨tree, s, htraverse⟩ :=
    exists_traverse (engineOf config grammar registry) file root (crew.map Prod.snd) events
  -- What two configurations that share a visitor have in common.
  have hshared : ∀ (config' : ScannerConfig σ α) (grammar' : Grammar)
      (crew' : List (Visitor σ α × σ)) (registry' : MetricRegistry α),
      config'.visitors = crew'.map Prod.fst → config'.extractors = config.extractors →
      Sound config' registry' →
      ∃ tree' s', (engineOf config' grammar' registry').traverse file root (crew'.map Prod.snd)
          events = .ok (tree', s') ∧
        tree'.shape = tree.shape ∧
        ∀ member ∈ crew, member ∈ crew' → member.1.Local → ∀ m ∈ member.1.metrics,
          tree'.owns m = tree.owns m ∧
            (registry'.get? m = registry.get? m → tree'.totals m = tree.totals m) := by
    intro config' grammar' crew' registry' hcrew' hextractors hsound'
    obtain ⟨tree', s', htraverse'⟩ := exists_traverse (engineOf config' grammar' registry') file
      root (crew'.map Prod.snd) events
    have hshape : tree'.shape = tree.shape := shape_eq_of_traverse hextractors htraverse htraverse'
    refine ⟨tree', s', htraverse', hshape, fun member hmember hmember' hlocal m hm => ?_⟩
    have hv : member.1 ∈ config.visitors := hcrew ▸ List.mem_map_of_mem hmember
    have howns : tree'.owns m = tree.owns m := owns_eq_of_shared hsound hcrew hsound' hcrew'
      hextractors hmember hmember' hlocal grammar grammar' file root events htraverse htraverse' m hm
    refine ⟨howns, fun hget => ?_⟩
    exact totals_eq_of_traverse hsound hsound' (mem_written.mpr ⟨member.1, hv, hm⟩) hget rfl rfl
      htraverse htraverse' hshape howns
  refine ⟨tree, s, htraverse, ?_, ?_, ?_⟩
  · intro member hmember hlocal
    have hv : member.1 ∈ config.visitors := hcrew ▸ List.mem_map_of_mem hmember
    have halone := hsound.alone hv
    obtain ⟨tree', s', htraverse', hshape, hagree⟩ :=
      hshared { config with visitors := [member.1] } grammar [member] registry rfl rfl halone
    refine ⟨_, tree', s', (build_eq_ok_iff _ _ _).mpr ⟨registry, halone, rfl⟩, htraverse', hshape,
      fun m hm => ?_⟩
    obtain ⟨howns, htotals⟩ :=
      hagree member hmember (List.mem_singleton_self member) hlocal m hm
    exact ⟨howns, htotals rfl⟩
  · intro config' grammar' crew' e' hcrew' hextractors he'
    obtain ⟨registry', hsound', rfl⟩ := (build_eq_ok_iff config' grammar' e').mp he'
    exact hshared config' grammar' crew' registry' hcrew' hextractors hsound'
  · intro hlocal crew' hperm
    have hsound' := hsound.perm (hcrew ▸ hperm.map Prod.fst)
    obtain ⟨tree', s', htraverse'⟩ := exists_traverse (engineOf
      { config with visitors := crew'.map Prod.fst } grammar registry) file root
      (crew'.map Prod.snd) events
    refine ⟨_, s', (build_eq_ok_iff _ _ _).mpr ⟨registry, hsound', rfl⟩, ?_⟩
    rw [htraverse', tree_eq_of_perm hsound hcrew hlocal hperm grammar file root events htraverse
      htraverse']

/-! ## Two visitors that write each other's metric -/

/-- Counts nodes of some kinds and marks their lines, and tries to overwrite
a metric that is not its own. -/
def meddler (own other : Metric) (nodeTypes : List String) : Visitor FileMemory Nat :=
  { Visitor.silent own [own] with
    nodeTypes := nodeTypes
    visitNode := fun memory n _ =>
      (memory, [.increment own, .set other 9, .markNoSonar n.startLine]) }

theorem meddler_isLocal (own other : Metric) (nodeTypes : List String) :
    (meddler own other nodeTypes).Local := by
  refine Visitor.local_of_blind fun hook n memory view view' => ?_
  cases hook <;> rfl

/-- Functions and branches, each counted by a visitor that meddles with the
other. -/
def meddlers : List (Visitor FileMemory Nat × FileMemory) :=
  [(meddler Metric.functions Metric.complexity ["function"], .empty),
    (meddler Metric.complexity Metric.functions ["if"], .empty)]

/-- Files, functions and branches, with a unit for every function. -/
def meddling : ScannerConfig FileMemory Nat where
  projectKey := "sample"
  metrics := MetricDefinition.standard
  filesMetric := some Metric.files
  visitors := meddlers.map Prod.fst
  extractors := [.rule "functions" .function ["function"] .byKind]

/-- The grammar of the sample trees; it parses nothing. -/
def sampleGrammar : Grammar := .ofTable "sample" [] none

theorem traverse_isolates_visitors_meddling :
    ∃ e, build meddling sampleGrammar = .ok e ∧
      ∃ tree s, e.traverse "f" twoFunctions [.empty, .empty] [] = .ok (tree, s) ∧
        tree.owns Metric.functions = [none, some 1, some 1] ∧
        tree.owns Metric.complexity = [none, some 1, some 2] ∧
        tree.noSonarLines = [1, 2, 3, 4, 5] ∧
        ∃ e' s', build { meddling with visitors := meddlers.reverse.map Prod.fst } sampleGrammar =
            .ok e' ∧
          e'.traverse "f" twoFunctions [.empty, .empty] [] = .ok (tree, s') := by
  have he : build meddling sampleGrammar =
      .ok (engineOf meddling sampleGrammar ⟨MetricDefinition.standard⟩) := rfl
  obtain ⟨tree, s, htraverse, -, -, hperm⟩ :=
    traverse_isolates_visitors (show meddling.visitors = meddlers.map Prod.fst from rfl) he "f"
      twoFunctions []
  have hvalues : ((engineOf meddling sampleGrammar ⟨MetricDefinition.standard⟩).traverse "f"
      twoFunctions (meddlers.map Prod.snd) []).toOption.map (fun result =>
        (result.1.owns Metric.functions, result.1.owns Metric.complexity,
          result.1.noSonarLines)) =
      some ([none, some 1, some 1], [none, some 1, some 2], [1, 2, 3, 4, 5]) := by cbv
  rw [htraverse] at hvalues
  simp only [Except.toOption, Option.map_some, Option.some.injEq, Prod.mk.injEq] at hvalues
  obtain ⟨hfunctions, hcomplexity, hlines⟩ := hvalues
  refine ⟨_, he, tree, s, htraverse, hfunctions, hcomplexity, hlines, ?_⟩
  refine hperm (fun member hmember => ?_) meddlers.reverse (List.reverse_perm meddlers).symm
  rcases List.mem_cons.mp hmember with rfl | hmember
  · exact meddler_isLocal Metric.functions Metric.complexity ["function"]
  · obtain rfl := List.mem_singleton.mp hmember
    exact meddler_isLocal Metric.complexity Metric.functions ["if"]

end Engine
end SourceMetrics
