/-
# Trees with the same own values

In an accounted tree the totals of a unit follow from the own values below
it, metric by metric.  So two trees of the same shape that agree in the own
values of a metric agree in its totals (`totals_eq_of_owns_eq`), whatever
the registries do with other metrics; only a computed metric may look at
others.  Where the own values of all metrics are the same and no lines are
marked, the trees are equal (`eq_of_owns_eq`).

Nothing is asked of the amounts: they may round.  What is compared is the
same sums of the same values in the same order.
-/
import SourceMetrics.Proofs.Scan.Totals

namespace SourceMetrics

/-! ## One metric at a time -/

namespace MetricRegistry

variable {α : Type} [Amount α] {r r' : MetricRegistry α} {d : MetricDefinition α}

theorem value?_mergeOne_congr {child child' gathered gathered' : Measures α}
    (hchild : child.value? d.metric = child'.value? d.metric)
    (hgathered : gathered.value? d.metric = gathered'.value? d.metric) :
    (mergeOne child gathered d).value? d.metric =
      (mergeOne child' gathered' d).value? d.metric := by
  rw [mergeOne, mergeOne, hchild]
  cases child'.value? d.metric with
  | none => exact hgathered
  | some x =>
      cases d.aggregation with
      | sum => simp only [Measures.value?_add, if_true, Measures.get, hgathered]
      | max => simp only [Measures.value?_set, if_true, hgathered]
      | computed inputs formula => exact hgathered

section
variable (hnodup : (r.definitions.map (·.metric)).Nodup)
  (hnodup' : (r'.definitions.map (·.metric)).Nodup) (hd : d ∈ r.definitions)
  (hd' : d ∈ r'.definitions)
include hnodup hnodup' hd hd'

theorem value?_mergeChild_congr {child child' gathered gathered' : Measures α}
    (hchild : child.value? d.metric = child'.value? d.metric)
    (hgathered : gathered.value? d.metric = gathered'.value? d.metric) :
    (r.mergeChild gathered child).value? d.metric =
      (r'.mergeChild gathered' child').value? d.metric := by
  obtain ⟨before, hbefore, hfold⟩ :=
    (recordsOwn_mergeOne child).value?_foldl_of_mem hnodup hd gathered
  obtain ⟨before', hbefore', hfold'⟩ :=
    (recordsOwn_mergeOne child').value?_foldl_of_mem hnodup' hd' gathered'
  rw [mergeChild, mergeChild, hfold, hfold']
  refine value?_mergeOne_congr hchild ?_
  rw [hbefore, hbefore', hgathered]

/-- What a unit gathers for a metric rests on the totals of its children for
that metric. -/
theorem value?_gather_congr {totals totals' : List (Measures α)}
    (h : totals.map (·.value? d.metric) = totals'.map (·.value? d.metric)) :
    (r.gather totals).value? d.metric = (r'.gather totals').value? d.metric := by
  have fold : ∀ gathered gathered' : Measures α,
      gathered.value? d.metric = gathered'.value? d.metric →
        (totals.foldl r.mergeChild gathered).value? d.metric =
          (totals'.foldl r'.mergeChild gathered').value? d.metric := by
    induction totals generalizing totals' with
    | nil =>
        intro gathered gathered' hgathered
        obtain rfl : totals' = [] := List.map_eq_nil_iff.mp h.symm
        exact hgathered
    | cons child rest ih =>
        intro gathered gathered' hgathered
        obtain ⟨child', rest', rfl, hchild, hrest⟩ := List.map_eq_cons_iff.mp h.symm
        rw [List.foldl_cons, List.foldl_cons]
        refine ih hrest.symm _ _ ?_
        exact value?_mergeChild_congr hnodup hnodup' hd hd' hchild.symm hgathered
  exact fold .empty .empty rfl

/-- The total of a metric that is not computed rests on its own value and
the gathered one. -/
theorem value?_finalize_congr (hcomputed : d.isComputed = false)
    {own own' gathered gathered' : Measures α}
    (hown : own.value? d.metric = own'.value? d.metric)
    (hgathered : gathered.value? d.metric = gathered'.value? d.metric) :
    (r.finalize own gathered).value? d.metric = (r'.finalize own' gathered').value? d.metric := by
  obtain ⟨before, hbefore, hfold⟩ :=
    (recordsOwn_finalizeOne own gathered).value?_foldl_of_mem hnodup hd .empty
  obtain ⟨before', hbefore', hfold'⟩ :=
    (recordsOwn_finalizeOne own' gathered').value?_foldl_of_mem hnodup' hd' .empty
  have htotal : totalOf own gathered before d = totalOf own' gathered' before' d := by
    rw [totalOf, totalOf, hown, hgathered]
    rw [MetricDefinition.isComputed] at hcomputed
    cases hd : d.aggregation with
    | sum => rfl
    | max => rfl
    | computed inputs formula =>
        rw [hd] at hcomputed
        cases hcomputed
  rw [finalize, finalize, hfold, hfold', finalizeOne, finalizeOne, htotal]
  cases totalOf own' gathered' before' d with
  | none =>
      show before.value? d.metric = before'.value? d.metric
      rw [hbefore, hbefore']
  | some x => simp only [Measures.value?_set, if_true]

end
end MetricRegistry

/-! ## Whole trees -/

namespace UnitTree

variable {α : Type}

/-- The own values of a metric on the units of a tree, each before those
below it. -/
def owns (m : Metric) (t : UnitTree α) : List (Option α) := t.preorder.map (·.own.value? m)

/-- The totals of a metric on the units of a tree, each before those below
it. -/
def totals (m : Metric) (t : UnitTree α) : List (Option α) :=
  t.preorder.map (·.measures.value? m)

theorem owns_eq_cons (m : Metric) (t : UnitTree α) :
    t.owns m = t.own.value? m :: (preorderList t.children).map (·.own.value? m) := by
  cases t
  rfl

theorem getElem?_owns {t u : UnitTree α} {i : Nat} (h : t.preorder[i]? = some u) (m : Metric) :
    (t.owns m)[i]? = some (u.own.value? m) := by
  rw [owns, List.getElem?_map, h]
  rfl

/-- The total of a summed metric is the sum of the own values. -/
theorem get_measures_eq_sum [Amount α] [LinearOrder α] [ExactAmount α] {r : MetricRegistry α}
    {d : MetricDefinition α} (hnodup : (r.definitions.map (·.metric)).Nodup)
    (hd : d ∈ r.definitions) (hsum : d.aggregation = .sum) {t : UnitTree α} (h : t.Accounted r) :
    t.measures.get d.metric = ((t.owns d.metric).map (·.getD 0)).sum := by
  have hop : d.aggregation.op? = some (· + ·) := by
    rw [hsum]
    rfl
  rw [Measures.get, value?_measures hnodup hd hop t h, getD_combine_add]
  rfl

theorem length_preorder_of_shape_eq {t t' : UnitTree α} (h : t.shape = t'.shape) :
    t.preorder.length = t'.preorder.length := by
  rw [← List.length_map spec, ← preorder_shape, h, preorder_shape, List.length_map]

/-- Trees that agree in the own values of every metric agree in all that was
recorded on their units. -/
theorem map_own_eq_of_owns_eq {t t' : UnitTree α} (hshape : t.shape = t'.shape)
    (h : ∀ m, t.owns m = t'.owns m) : t.preorder.map (·.own) = t'.preorder.map (·.own) := by
  refine List.ext_getElem ?_ fun i hi hi' => ?_
  · rw [List.length_map, List.length_map, length_preorder_of_shape_eq hshape]
  · rw [List.getElem_map, List.getElem_map]
    refine Measures.ext_value fun m => ?_
    have hvalue := congrArg (·[i]?) (h m)
    rw [List.length_map] at hi hi'
    simp only [owns, List.getElem?_map, List.getElem?_eq_getElem hi, List.getElem?_eq_getElem hi',
      Option.map_some, Option.some.injEq] at hvalue
    exact hvalue

/-- What is listed for trees side by side is listed for the first and for
the others. -/
theorem map_preorderList_cons_eq {β : Type} (f : UnitTree α → β) {t t' : UnitTree α}
    {ts ts' : List (UnitTree α)} (hshape : t.shape = t'.shape) :
    (preorderList (t :: ts)).map f = (preorderList (t' :: ts')).map f ↔
      t.preorder.map f = t'.preorder.map f ∧ (preorderList ts).map f = (preorderList ts').map f := by
  rw [preorderList, preorderList, List.map_append, List.map_append]
  constructor
  · intro h
    refine List.append_inj h ?_
    rw [List.length_map, List.length_map, length_preorder_of_shape_eq hshape]
  · rintro ⟨hfirst, hrest⟩
    rw [hfirst, hrest]

variable [Amount α] {r r' : MetricRegistry α}

section
variable {d : MetricDefinition α}

mutual
/-- Own values decide the totals of a metric that is not computed. -/
theorem totals_eq_of_owns_eq (hnodup : (r.definitions.map (·.metric)).Nodup)
    (hnodup' : (r'.definitions.map (·.metric)).Nodup) (hd : d ∈ r.definitions)
    (hd' : d ∈ r'.definitions) (hcomputed : d.isComputed = false) :
    ∀ t t' : UnitTree α, t.Accounted r → t'.Accounted r' → t.shape = t'.shape →
      t.owns d.metric = t'.owns d.metric → t.totals d.metric = t'.totals d.metric
  | ⟨kind, key, line, own, measures, lines, children⟩,
    ⟨kind', key', line', own', measures', lines', children'⟩, h, h', hshape, howns => by
      have hroot : measures = r.finalize own (r.gather (children.map (·.measures))) :=
        h _ (mem_preorder_self _)
      have hroot' : measures' = r'.finalize own' (r'.gather (children'.map (·.measures))) :=
        h' _ (mem_preorder_self _)
      obtain ⟨hown, hbelow⟩ := List.cons.inj howns
      obtain ⟨hgathered, htotals⟩ := totalsList_eq_of_owns_eq hnodup hnodup' hd hd' hcomputed
        children children' (fun c hc => h.child hc) (fun c hc => h'.child hc)
        (congrArg UnitShape.children hshape) hbelow
      refine congrArg₂ List.cons ?_ htotals
      show measures.value? d.metric = measures'.value? d.metric
      rw [hroot, hroot']
      refine MetricRegistry.value?_finalize_congr hnodup hnodup' hd hd' hcomputed hown ?_
      refine MetricRegistry.value?_gather_congr hnodup hnodup' hd hd' ?_
      rw [List.map_map, List.map_map]
      exact hgathered
theorem totalsList_eq_of_owns_eq (hnodup : (r.definitions.map (·.metric)).Nodup)
    (hnodup' : (r'.definitions.map (·.metric)).Nodup) (hd : d ∈ r.definitions)
    (hd' : d ∈ r'.definitions) (hcomputed : d.isComputed = false) :
    ∀ ts ts' : List (UnitTree α), (∀ t ∈ ts, t.Accounted r) → (∀ t ∈ ts', t.Accounted r') →
      shapeList ts = shapeList ts' →
      (preorderList ts).map (·.own.value? d.metric) =
        (preorderList ts').map (·.own.value? d.metric) →
      ts.map (fun t => t.measures.value? d.metric) =
          ts'.map (fun t => t.measures.value? d.metric) ∧
        (preorderList ts).map (·.measures.value? d.metric) =
          (preorderList ts').map (·.measures.value? d.metric)
  | [], [], _, _, _, _ => ⟨rfl, rfl⟩
  | [], _ :: _, _, _, hshapes, _ => by cases hshapes
  | _ :: _, [], _, _, hshapes, _ => by cases hshapes
  | t :: ts, t' :: ts', h, h', hshapes, howns => by
      obtain ⟨hshape, hshapes⟩ := List.cons.inj hshapes
      obtain ⟨hfirst, hrest⟩ := (map_preorderList_cons_eq _ hshape).mp howns
      have htotals : t.totals d.metric = t'.totals d.metric :=
        totals_eq_of_owns_eq hnodup hnodup' hd hd' hcomputed t t' (h t List.mem_cons_self)
          (h' t' List.mem_cons_self) hshape hfirst
      obtain ⟨hroots, hbelow⟩ := totalsList_eq_of_owns_eq hnodup hnodup' hd hd' hcomputed ts ts'
        (fun t ht => h t (List.mem_cons_of_mem _ ht))
        (fun t ht => h' t (List.mem_cons_of_mem _ ht)) hshapes hrest
      refine ⟨?_, (map_preorderList_cons_eq _ hshape).mpr ⟨htotals, hbelow⟩⟩
      have hroot : t.measures.value? d.metric = t'.measures.value? d.metric := by
        cases t
        cases t'
        exact (List.cons.inj htotals).1
      rw [List.map_cons, List.map_cons, hroot, hroots]
end

end

/-- No line is marked on any unit of the trees. -/
def Unmarked (ts : List (UnitTree α)) : Prop := ∀ u ∈ preorderList ts, u.noSonarLines = []

omit [Amount α] in
theorem unmarked_cons_iff {t : UnitTree α} {ts : List (UnitTree α)} :
    Unmarked (t :: ts) ↔ t.noSonarLines = [] ∧ Unmarked t.children ∧ Unmarked ts := by
  cases t
  simp only [Unmarked, preorderList, preorder, List.cons_append, List.forall_mem_cons,
    List.forall_mem_append]

mutual
/-- Own values decide the tree. -/
theorem eq_of_owns_eq :
    ∀ t t' : UnitTree α, t.Accounted r → t'.Accounted r → t.shape = t'.shape →
      t.preorder.map (·.own) = t'.preorder.map (·.own) → t.noSonarLines = t'.noSonarLines →
      Unmarked t.children → Unmarked t'.children → t = t'
  | ⟨kind, key, line, own, measures, lines, children⟩,
    ⟨kind', key', line', own', measures', lines', children'⟩, h, h', hshape, howns, hlines,
    hunmarked, hunmarked' => by
      have hroot : measures = r.finalize own (r.gather (children.map (·.measures))) :=
        h _ (mem_preorder_self _)
      have hroot' : measures' = r.finalize own' (r.gather (children'.map (·.measures))) :=
        h' _ (mem_preorder_self _)
      obtain ⟨rfl, hbelow⟩ := List.cons.inj howns
      obtain rfl := eqList_of_owns_eq children children' (fun c hc => h.child hc)
        (fun c hc => h'.child hc) (congrArg UnitShape.children hshape) hbelow hunmarked hunmarked'
      cases hshape
      cases hlines
      rw [hroot, hroot']
theorem eqList_of_owns_eq :
    ∀ ts ts' : List (UnitTree α), (∀ t ∈ ts, t.Accounted r) → (∀ t ∈ ts', t.Accounted r) →
      shapeList ts = shapeList ts' →
      (preorderList ts).map (·.own) = (preorderList ts').map (·.own) →
      Unmarked ts → Unmarked ts' → ts = ts'
  | [], [], _, _, _, _, _, _ => rfl
  | [], _ :: _, _, _, hshapes, _, _, _ => by cases hshapes
  | _ :: _, [], _, _, hshapes, _, _, _ => by cases hshapes
  | t :: ts, t' :: ts', h, h', hshapes, howns, hunmarked, hunmarked' => by
      obtain ⟨hshape, hshapes⟩ := List.cons.inj hshapes
      obtain ⟨hfirst, hrest⟩ := (map_preorderList_cons_eq _ hshape).mp howns
      obtain ⟨hlines, hchildren, hrest'⟩ := unmarked_cons_iff.mp hunmarked
      obtain ⟨hlines', hchildren', hrest''⟩ := unmarked_cons_iff.mp hunmarked'
      rw [eq_of_owns_eq t t' (h t List.mem_cons_self) (h' t' List.mem_cons_self) hshape hfirst
          (hlines.trans hlines'.symm) hchildren hchildren',
        eqList_of_owns_eq ts ts' (fun t ht => h t (List.mem_cons_of_mem _ ht))
          (fun t ht => h' t (List.mem_cons_of_mem _ ht)) hshapes hrest hrest' hrest'']
end

end UnitTree
end SourceMetrics
