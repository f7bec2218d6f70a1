/-
# The order of files

A session takes files in the order they are listed, and folds their totals
into those of the project one by one.  With the visitors that come with the
scanner, none of that shows but in ids and in the order of the files
(`scanFiles_perm`):

* no file leaks into another, so each has the tree of a scan of its own
  (`Engine.treesOf_eq_filterMap`), and the trees of the files in another order
  are these trees in another order;
* to fold totals together is commutative, sums and maxima alike, with values
  that are not there passed over (`MetricRegistry.mergeChild_right_comm`);
* computed metrics are no part of what is folded, and are worked out from
  what does not depend on the order.

Only the folding asks for exact amounts.
-/
import Mathlib.Data.List.Perm.Basic
import SourceMetrics.Proofs.Scan.InOrder
import SourceMetrics.Proofs.Unit.ProjectTotals

namespace SourceMetrics

open UnitIndex FileRequest

/-! ## Totals folded together in any order -/

namespace MetricRegistry

variable {α : Type} [Amount α] {r : MetricRegistry α}

/-- What is not summed, and no maximum, is no part of what is gathered. -/
theorem value?_mergeChild_of_ungathered {m : Metric}
    (h : ∀ d ∈ r.definitions, d.metric = m → d.aggregation.op? = none)
    (gathered child : Measures α) :
    (r.mergeChild gathered child).value? m = gathered.value? m := by
  rw [mergeChild]
  revert h
  induction r.definitions generalizing gathered with
  | nil => exact fun _ => rfl
  | cons d rest ih =>
      intro h
      obtain ⟨hd, hrest⟩ := List.forall_mem_cons.mp h
      rw [List.foldl_cons, ih _ hrest]
      by_cases hmetric : d.metric = m
      · rw [mergeOne]
        cases child.value? d.metric with
        | none => rfl
        | some x =>
            have hop := hd hmetric
            cases haggregation : d.aggregation with
            | sum =>
                rw [haggregation] at hop
                cases hop
            | max =>
                rw [haggregation] at hop
                cases hop
            | computed inputs formula => rfl
      · exact recordsOwn_mergeOne child gathered d m hmetric

variable [LinearOrder α] [ExactAmount α]

/-- Two children may be folded in in either order. -/
theorem mergeChild_right_comm (hnodup : (r.definitions.map (·.metric)).Nodup)
    (gathered a b : Measures α) :
    r.mergeChild (r.mergeChild gathered a) b = r.mergeChild (r.mergeChild gathered b) a := by
  refine Measures.ext_value fun m => ?_
  by_cases h : ∃ d ∈ r.definitions, d.metric = m ∧ ∃ op, d.aggregation.op? = some op
  · obtain ⟨d, hd, rfl, op, hop⟩ := h
    have : Std.Associative op := Aggregation.assoc_of_op? hop
    have : Std.Commutative op := Aggregation.comm_of_op? hop
    simp only [value?_mergeChild hnodup hd hop]
    ac_rfl
  · have hungathered : ∀ d ∈ r.definitions, d.metric = m → d.aggregation.op? = none := by
      intro d hd hmetric
      by_contra hop
      exact h ⟨d, hd, hmetric, Option.ne_none_iff_exists'.mp hop⟩
    simp only [value?_mergeChild_of_ungathered hungathered]

/-- What children gather to does not rest on their order. -/
theorem gather_eq_of_perm (hnodup : (r.definitions.map (·.metric)).Nodup)
    {totals totals' : List (Measures α)} (h : totals.Perm totals') :
    r.gather totals = r.gather totals' :=
  h.foldl_eq' (fun a _ b _ gathered => mergeChild_right_comm hnodup gathered a b) .empty

end MetricRegistry

/-! ## Trees offered in any order -/

namespace UnitIndex

variable {α : Type} [Amount α] [LinearOrder α] [ExactAmount α]

/-- Files of the same trees, in whatever order, give the project the same
totals. -/
theorem KeepsTotals.measures_eq_of_perm {index index' : UnitIndex α} (h : index.KeepsTotals)
    (h' : index'.KeepsTotals) (hnodup : (index.registry.definitions.map (·.metric)).Nodup)
    (hregistry : index'.registry = index.registry) (hown : index'.project.own = index.project.own)
    (hperm : ((index.children projectId).map (·.measures)).Perm
      ((index'.children projectId).map (·.measures))) :
    index.project.measures = index'.project.measures := by
  have hempty : (index.children projectId).isEmpty = (index'.children projectId).isEmpty := by
    rw [← List.isEmpty_map (f := (·.measures)), hperm.isEmpty_eq, List.isEmpty_map]
  rw [h.measures, h'.measures, hempty, ruledTotals, ruledTotals, hregistry, hown,
    MetricRegistry.gather_eq_of_perm hnodup hperm]

omit [Amount α] [LinearOrder α] [ExactAmount α] in
/-- Trees whose roots agree in all that is their own, and in their totals, are
the same but for what is below the roots. -/
theorem eq_but_children_of_bare_eq {parent : Option Nat} {id : Nat} {t t' : UnitTree α}
    (hbare : (t'.rootUnit parent id).bare = (t.rootUnit parent id).bare)
    (hmeasures : t'.measures = t.measures) : t' = { t with children := t'.children } := by
  obtain ⟨kind, key, line, own, measures, marked, children⟩ := t
  obtain ⟨kind', key', line', own', measures', marked', children'⟩ := t'
  simp only [SourceUnit.bare, UnitTree.rootUnit, SourceUnit.mk.injEq] at hbare
  obtain ⟨-, rfl, rfl, rfl, rfl, -, rfl, -⟩ := hbare
  cases hmeasures
  rfl

/-- Trees of free keys, no two the same, make the same project in whatever
order they are offered, but for the order of its files. -/
theorem KeepsTotals.offerAll_perm {index : UnitIndex α} {t : UnitTree α} (hkeeps : index.KeepsTotals)
    (h : index.Represents t) (hnodup : (index.registry.definitions.map (·.metric)).Nodup)
    {trees trees' : List (UnitTree α)} (hperm : trees.Perm trees')
    (hkeys : (trees.map (·.key)).Nodup)
    (hfree : ∀ key ∈ trees.map (·.key), index.holdsFile key = false) :
    ∃ project project', (index.offerAll trees).toTree projectId = some project ∧
      (index.offerAll trees').toTree projectId = some project' ∧
      project.children.Perm project'.children ∧
      project' = { project with children := project'.children } := by
  have hmapped : (trees.map (·.key)).Perm (trees'.map (·.key)) := hperm.map _
  have haccepted := h.accepted_eq_self hkeys hfree
  have haccepted' := h.accepted_eq_self (hmapped.nodup_iff.mp hkeys) fun key hkey =>
    hfree key (hmapped.mem_iff.mpr hkey)
  obtain ⟨t₁, ht₁, hchildren⟩ := h.offerAll trees
  obtain ⟨t₂, ht₂, hchildren'⟩ := h.offerAll trees'
  obtain ⟨hkeeps₁, hregistry, hbare⟩ := hkeeps.offerAll h trees
  obtain ⟨hkeeps₂, hregistry', hbare'⟩ := hkeeps.offerAll h trees'
  have hfiles : t₁.children.Perm t₂.children := by
    rw [hchildren, hchildren', haccepted, haccepted']
    exact hperm.append_left t.children
  have hroots := hbare'.trans hbare.symm
  have hmeasures : (index.offerAll trees).project.measures =
      (index.offerAll trees').project.measures := by
    refine hkeeps₁.measures_eq_of_perm hkeeps₂ ?_ (hregistry'.trans hregistry.symm)
      (congrArg (·.own) hroots) ?_
    · rw [hregistry]
      exact hnodup
    · rw [ht₁.map_children_project (g := fun t => t.measures) fun _ _ _ => rfl,
        ht₂.map_children_project (g := fun t => t.measures) fun _ _ _ => rfl]
      exact hfiles.map _
  refine ⟨t₁, t₂, toTree_of_holds none projectId t₁ ht₁.holds,
    toTree_of_holds none projectId t₂ ht₂.holds, hfiles, ?_⟩
  rw [ht₁.project_eq, ht₂.project_eq] at hroots hmeasures
  exact eq_but_children_of_bare_eq hroots hmeasures.symm

end UnitIndex

/-! ## Files in any order -/

theorem Engine.failuresOf_perm {σ α : Type} (e : Engine σ α) {rs rs' : List FileRequest}
    (h : rs.Perm rs') : (e.failuresOf rs).Perm (e.failuresOf rs') :=
  h.filterMap _

theorem Engine.treesOf_perm {σ α κ : Type} [Amount α] {e : Engine σ α} {setup : Visitor σ α → σ → κ}
    (hreset : ∀ v ∈ e.visitors, v.Resets (setup v)) (ms : List σ) {rs rs' : List FileRequest}
    (h : rs.Perm rs') : (e.treesOf ms rs).Perm (e.treesOf ms rs') := by
  rw [treesOf_eq_filterMap hreset (.refl ms), treesOf_eq_filterMap hreset (.refl ms)]
  exact h.filterMap _

namespace Scanner

variable {σ α κ : Type} [Amount α]

omit [Amount α] in
theorem Apart.perm {sc : Scanner σ α} {rs rs' : List FileRequest} (h : sc.Apart rs)
    (hperm : rs.Perm rs') : sc.Apart rs' := by
  have hkeys : (scannedKeys sc.engine.grammar rs).Perm (scannedKeys sc.engine.grammar rs') :=
    (hperm.filter _).map _
  exact ⟨hkeys.nodup_iff.mp h.nodup, fun key hkey => h.free key (hkeys.mem_iff.mpr hkey)⟩

/-- After any history the totals of the project are kept, by the registry of
the engine. -/
theorem keepsTotals_after {config : ScannerConfig σ α} {grammar : Grammar} {fresh : Scanner σ α}
    {events : List (Event α)} (hnew : new config grammar = .ok (fresh, events))
    (requests : List Request) :
    (fresh.after requests).index.KeepsTotals ∧
      (fresh.after requests).index.registry = fresh.engine.registry := by
  let P : Scanner σ α → Prop := fun sc =>
    (∃ t, sc.index.Represents t) ∧ sc.index.KeepsTotals ∧
      sc.index.registry = fresh.engine.registry
  have hstart : P fresh := by
    refine ⟨⟨_, represents_of_new hnew⟩, ?_⟩
    obtain ⟨registry, -, rfl⟩ := new_eq_ok hnew
    exact ⟨keepsTotals_new config.projectKey registry, rfl⟩
  have hend : P (fresh.after requests) := by
    refine (steps_after fresh requests).preserves ?_ hstart
    rintro sc sc' step ⟨⟨t, ht⟩, hkeeps, hregistry⟩
    cases step with
    | scanned => exact ⟨⟨t, ht⟩, hkeeps, hregistry⟩
    | taken _ _ hinsert =>
        obtain ⟨-, t', ht', -⟩ := ht.insert hinsert
        exact ⟨⟨t', ht'⟩, hkeeps.insert ht hinsert, (totals_insert ht hinsert).1.trans hregistry⟩
    | cancelled => exact ⟨⟨t, ht⟩, hkeeps, hregistry⟩
  exact hend.2

/-- Two sessions over some files come to the same but for ids and the order of
the files.  They go through with the same failures and the same trees, where
every file has its tree or its failure unless the sessions were cancelled, and
they leave the same project, all its totals included. -/
structure SameButOrder (paths : List String) (one other : Session σ α) : Prop where
  reports : ∃ report report', one.result = .ok report ∧ other.result = .ok report' ∧
    report.cancelled = report'.cancelled ∧ report.failures.Perm report'.failures ∧
    (report.scanned.map one.scanner.index.toTree).Perm
      (report'.scanned.map other.scanner.index.toTree) ∧
    (report.cancelled = false → ∀ path ∈ paths,
      (∃ err, ⟨path, err⟩ ∈ report.failures ∧ ⟨path, err⟩ ∈ report'.failures) ∨
      ∃ tree, tree.key = path ∧
        (∃ id ∈ report.scanned, one.scanner.index.toTree id = some tree) ∧
        ∃ id ∈ report'.scanned, other.scanner.index.toTree id = some tree)
  projects : ∃ project project', one.scanner.index.toTree projectId = some project ∧
    other.scanner.index.toTree projectId = some project' ∧
    project.children.Perm project'.children ∧
    project' = { project with children := project'.children }

omit [Amount α] in
/-- A session that does no file comes to the same as itself. -/
theorem SameButOrder.refl {paths : List String} {s : Session σ α} {report : ScanReport}
    (hresult : s.result = .ok report) {t : UnitTree α} (ht : s.scanner.index.Represents t)
    (hnone : report.cancelled = true ∨ paths = []) : SameButOrder paths s s := by
  have hproject := toTree_of_holds none projectId t ht.holds
  refine ⟨⟨report, report, hresult, hresult, rfl, .refl _, .refl _, ?_⟩, t, t, hproject, hproject,
    .refl _, ?_⟩
  · intro hcancelled path hpath
    rcases hnone with htrue | rfl
    · rw [hcancelled] at htrue
      cases htrue
    · cases hpath
  · cases t
    rfl

variable [LinearOrder α] [ExactAmount α]

/-- Where no file leaks into another, sessions over the same files in another
order come to the same but for that order. -/
theorem scanFiles_perm_of_resets {sc : Scanner σ α} {setup : Visitor σ α → σ → κ}
    (hreset : ∀ v ∈ sc.engine.visitors, v.Resets (setup v)) {t : UnitTree α}
    (ht : sc.index.Represents t) (hkeeps : sc.index.KeepsTotals)
    (hnodup : (sc.index.registry.definitions.map (·.metric)).Nodup) (read : Reader)
    {paths paths' : List String} (hperm : paths.Perm paths')
    (hapart : sc.Apart (paths.map (.path read))) :
    SameButOrder paths (sc.scanFiles read none paths) (sc.scanFiles read none paths') := by
  have hrequests : (paths.map (FileRequest.path read)).Perm (paths'.map (.path read)) :=
    hperm.map _
  have hapart' := hapart.perm hrequests
  cases hcancelled : sc.cancelled with
  | true =>
      by_cases hpaths : paths = []
      · subst hpaths
        obtain rfl := hperm.nil_eq
        exact .refl (s := sc.scanFiles read none []) rfl ht (.inr rfl)
      · have hpaths' : paths' ≠ [] := fun hnil => hpaths (hnil ▸ hperm).eq_nil
        rw [scanFiles, scanFiles, scanFrom_of_cancelled hcancelled read none 0 .empty hpaths,
          scanFrom_of_cancelled hcancelled read none 0 .empty hpaths']
        exact .refl rfl ht (.inl rfl)
  | false =>
      obtain ⟨hresult, hindex⟩ := Prod.mk.inj (outcome_scanFrom_apart ht hcancelled hapart 0 .empty)
      obtain ⟨hresult', hindex'⟩ :=
        Prod.mk.inj (outcome_scanFrom_apart ht hcancelled hapart' 0 .empty)
      have htrees := Engine.treesOf_perm hreset sc.memories hrequests
      have hkeys := sc.engine.map_key_treesOf sc.memories (paths.map (.path read))
      have hfailures := sc.engine.failuresOf_perm hrequests
      refine ⟨⟨_, _, hresult, hresult', rfl, hfailures, ?_, fun _ path hpath => ?_⟩, ?_⟩
      · rw [scanFiles, scanFiles, hindex, hindex']
        have hone := List.Perm.of_eq (hapart.taken ht)
        have hother := List.Perm.of_eq (hapart'.taken ht)
        exact hone.trans ((htrees.map some).trans hother.symm)
      · have hrequest : FileRequest.path read path ∈ paths.map (.path read) :=
          List.mem_map_of_mem hpath
        rw [scanFiles, scanFiles, hindex, hindex']
        rcases sc.engine.mem_failuresOf_or_mem_scannedKeys hrequest with
          ⟨⟨_, err⟩, hfailed, rfl⟩ | hscanned
        · exact .inl ⟨err, hfailed, hfailures.mem_iff.mp hfailed⟩
        · rw [← hkeys] at hscanned
          obtain ⟨tree, htree, hkey⟩ := List.mem_map.mp hscanned
          exact .inr ⟨tree, hkey, hapart.exists_taken ht htree,
            hapart'.exists_taken ht (htrees.mem_iff.mp htree)⟩
      · rw [scanFiles, scanFiles, hindex, hindex']
        exact hkeeps.offerAll_perm ht hnodup htrees (hkeys ▸ hapart.nodup) (hkeys ▸ hapart.free)

/-- With the visitors that come with the scanner, two sessions over the same
files in another order come to the same but for that order, whatever the
scanner has been through. -/
theorem scanFiles_perm {config : ScannerConfig FileMemory α} {grammar : Grammar}
    {fresh : Scanner FileMemory α} {events : List (Event α)}
    (hnew : new config grammar = .ok (fresh, events))
    (hvisitors : ∀ v ∈ config.visitors, v.BuiltIn) (history : List Request) (read : Reader)
    {paths paths' : List String} (hperm : paths.Perm paths')
    (hapart : (fresh.after history).Apart (paths.map (.path read))) :
    SameButOrder paths ((fresh.after history).scanFiles read none paths)
      ((fresh.after history).scanFiles read none paths') := by
  obtain ⟨registry, hsound, hfresh⟩ := new_eq_ok hnew
  obtain ⟨t, ht⟩ := represents_after hnew history
  obtain ⟨hkeeps, hregistry⟩ := keepsTotals_after hnew history
  have hreset : ∀ v ∈ (fresh.after history).engine.visitors, v.Resets (fun _ => ()) := by
    intro v hv
    rw [(steps_after fresh history).engine_eq, hfresh] at hv
    exact (hvisitors v hv).resets
  refine scanFiles_perm_of_resets hreset ht hkeeps ?_ read hperm hapart
  rw [hregistry, hfresh]
  exact MetricRegistry.nodup_of_ofDefinitions hsound.registered

/-- Two files that can be scanned and one that cannot, where a file was
scanned before. -/
theorem scanFiles_perm_headed :
    ∃ fresh events, new withHeader headed = .ok (fresh, events) ∧
      (∀ v ∈ withHeader.visitors, v.BuiltIn) ∧
      let sc := fresh.after [.file (.text "z" "x")]
      let read : Reader := fun path => .ok (if path = "b" then "?" else "x")
      ["a", "b", "c"].Perm ["c", "a", "b"] ∧ sc.Apart (["a", "b", "c"].map (.path read)) ∧
      SameButOrder ["a", "b", "c"] (sc.scanFiles read none ["a", "b", "c"])
        (sc.scanFiles read none ["c", "a", "b"]) := by
  have hnew : new withHeader headed = .ok (_, _) := rfl
  have hperm : ["a", "b", "c"].Perm ["c", "a", "b"] := by decide
  refine ⟨_, _, hnew, builtIn_withHeader, ?_⟩
  intro sc read
  have hapart : sc.Apart (["a", "b", "c"].map (.path read)) :=
    ⟨by decide +kernel, by decide +kernel⟩
  exact ⟨hperm, hapart,
    scanFiles_perm hnew builtIn_withHeader [.file (.text "z" "x")] read hperm hapart⟩

end Scanner
end SourceMetrics
